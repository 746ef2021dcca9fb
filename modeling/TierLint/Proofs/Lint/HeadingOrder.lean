import TierLint.Proofs.Lint.Dispatch

/-!
# Canonical headings in their order

The rule on headings looks twice at a document. It follows the ranks of the headings that are in the
vocabulary up to the first that is less than the one in front of it (`Rule.firstInversion?`), and it
asks for each term whether some heading has it. Both looks are at the same headings, all the nodes
of that kind at any depth (`Element.map_nodesOf`), and together they decide the order exactly
(`Rule.check_headingOrder`).
-/

set_option autoImplicit false

namespace TierLint

open Element List Unicode

/-! ## Nodes inside an element -/

namespace Element

mutual

/-- The element and the elements inside of it, as far as they are nodes, in document order. -/
def descendants : Element → List Element
  | .token _ _ => []
  | .node k es => .node k es :: descendantsOf es

/-- The nodes among some elements and inside of them. -/
def descendantsOf : List Element → List Element
  | [] => []
  | e :: es => e.descendants ++ descendantsOf es

end

theorem map_nodesBehind (k : Kind) (above : List Element) (front : Text) (es : List Element) :
    (nodesBehind k above front es).map (·.element) =
      (descendantsOf es).filter (·.kind == k) := by
  induction es using forest_induction generalizing above front with
  | nil => rfl
  | token k₁ t es ih =>
    rw [nodesBehind_token, ih, descendantsOf, descendants, nil_append]
  | node k₁ inside es ihInside ih =>
    -- both searches come to a node in front of what lies inside of it
    rw [nodesBehind_node, map_append, map_append, ihInside, ih, descendantsOf, descendants,
      cons_append, filter_cons, filter_append, kind]
    by_cases same : k₁ = k <;> simp [same]

/-- A search finds the nodes of its kind at any depth. -/
theorem map_nodesOf (tree : Element) (k : Kind) :
    (tree.nodesOf k).map (·.element) = tree.descendants.filter (·.kind == k) := by
  rw [nodesOf_eq, map_nodesBehind, descendantsOf, descendantsOf, append_nil]

/-- The headings that have one of the terms, each with the first place of its term among them. -/
def headingRanks (tree : Element) (terms : List Text) : List (Nat × Visit) :=
  (tree.nodesOf .heading).filterMap fun v =>
    ((terms.map lowercase).idxOf? v.element.headingTerm).map fun i => (i, v)

/-- Some heading in the tree has the term. -/
def HasHeading (tree : Element) (term : Text) : Prop :=
  ∃ e ∈ tree.descendants, e.kind = .heading ∧ e.headingTerm = lowercase term

instance (tree : Element) (term : Text) : Decidable (tree.HasHeading term) :=
  inferInstanceAs (Decidable (∃ e ∈ tree.descendants, _))

end Element

/-! ## Ranks -/

/-- The ranks never decrease. -/
def InOrder (ranks : List (Nat × Visit)) : Prop := (ranks.map Prod.fst).Pairwise (· ≤ ·)

/-- The heading has a smaller rank than the one in front of it, and is the first that has. -/
def FirstInversion (ranks : List (Nat × Visit)) (v : Visit) : Prop :=
  ∃ front i u j back, ranks = front ++ (i, u) :: (j, v) :: back ∧ j < i ∧
    InOrder (front ++ [(i, u)])

namespace Rule

variable {last : Nat} {ranked : List (Nat × Visit)} {v : Visit}

/-- Behind the rank `last` nothing is out of order exactly if the ranks go on without a decrease. -/
theorem firstInversion?_eq_none_iff :
    firstInversion? last ranked = none ↔ (last :: ranked.map Prod.fst).IsChain (· ≤ ·) := by
  induction ranked generalizing last with
  | nil => simp [firstInversion?]
  | cons x ranked ih =>
    obtain ⟨i, u⟩ := x
    rw [firstInversion?, map_cons, isChain_cons_cons, ← ih]
    split
    · simp only [reduceCtorEq, false_iff]
      omega
    · simp only [iff_and_self]
      omega

/-- What is found behind the rank `last` is the first that is less than the one in front of it. -/
theorem exists_of_firstInversion?_eq_some (h : firstInversion? last ranked = some v) :
    ∃ front j back, ranked = front ++ (j, v) :: back ∧
      (last :: front.map Prod.fst).IsChain (· ≤ ·) ∧
      j < (last :: front.map Prod.fst).getLast (cons_ne_nil _ _) := by
  induction ranked generalizing last with
  | nil => cases h
  | cons x ranked ih =>
    obtain ⟨i, u⟩ := x
    rw [firstInversion?] at h
    split at h
    · cases h
      exact ⟨[], i, ranked, rfl, isChain_singleton _, by assumption⟩
    · obtain ⟨front, j, back, rfl, chain, less⟩ := ih h
      refine ⟨(i, u) :: front, j, back, rfl, isChain_cons_cons.2 ⟨by omega, chain⟩, ?_⟩
      simpa using less

/-- Ranks that do not decrease are passed over. -/
theorem firstInversion?_append {front back : List (Nat × Visit)} {i j : Nat} {u : Visit}
    (chain : (last :: (front ++ [(i, u)]).map Prod.fst).IsChain (· ≤ ·)) (less : j < i) :
    firstInversion? last (front ++ (i, u) :: (j, v) :: back) = some v := by
  -- the induction is on the ranks that the search passes over
  induction front generalizing last with
  | nil =>
    have le : last ≤ i := (isChain_cons_cons.1 chain).1
    rw [nil_append, firstInversion?, if_neg (by omega), firstInversion?, if_pos less]
  | cons x front ih =>
    obtain ⟨k, w⟩ := x
    obtain ⟨le, chain⟩ := isChain_cons_cons.1 chain
    rw [cons_append, firstInversion?, if_neg (by omega), ih chain]

theorem firstInversion?_eq_some_iff :
    firstInversion? 0 ranked = some v ↔ FirstInversion ranked v := by
  constructor
  · intro h
    obtain ⟨front, j, back, rfl, chain, less⟩ := exists_of_firstInversion?_eq_some h
    rcases front.eq_nil_or_concat' with rfl | ⟨front, ⟨i, u⟩, rfl⟩
    · -- no rank is less than the one the search begins with
      exact absurd less (Nat.not_lt_zero j)
    · exact ⟨front, i, u, j, back, by simp, by simpa using less,
        (isChain_iff_pairwise.1 chain).of_cons⟩
  · rintro ⟨front, i, u, j, back, rfl, less, sorted⟩
    refine firstInversion?_append (isChain_iff_pairwise.2 ?_) less
    exact pairwise_cons.2 ⟨fun _ _ => Nat.zero_le _, sorted⟩

theorem firstInversion?_zero_eq_none_iff :
    firstInversion? 0 ranked = none ↔ InOrder ranked := by
  rw [firstInversion?_eq_none_iff, isChain_iff_pairwise, pairwise_cons]
  exact and_iff_right fun _ _ => Nat.zero_le _

theorem rankedHeadings_eq (s : Subject) (terms : List Text) :
    rankedHeadings terms s.headings = s.tree.headingRanks terms := by
  rw [rankedHeadings, Subject.headings, headingRanks, filterMap_map]
  refine filterMap_congr fun v _ => ?_
  rw [Function.comp_apply, idxOf?, findIdx?_map]
  rfl

theorem missingHeadings_eq (s : Subject) (terms : List Text) :
    s.missingHeadings terms = terms.filter fun term => ¬s.tree.HasHeading term := by
  have found : s.headings.map (·.2) =
      (s.tree.descendants.filter (·.kind == .heading)).map headingTerm := by
    rw [← map_nodesOf, map_map, Subject.headings, map_map]
    rfl
  rw [Subject.missingHeadings, found]
  refine filter_congr fun term _ => ?_
  have given : ((s.tree.descendants.filter (·.kind == .heading)).map headingTerm).contains
      (lowercase term) = decide (s.tree.HasHeading term) := by
    rw [contains_eq_mem, decide_eq_decide]
    simp only [mem_map, mem_filter, beq_iff_eq, HasHeading, and_assoc]
  rw [given, decide_not]

/-- **The order of headings.** If the ranks of the headings decrease somewhere, the rule reports the
first heading where they do; then it reports the terms that no heading has, all at once. Nothing
else is reported. -/
theorem check_headingOrder (s : Subject) (strict : s.tier = .strict) :
    let terms := s.settings.vocabulary.canonicalHeadings
    let ranks := s.tree.headingRanks terms
    let missing := terms.filter fun term => ¬s.tree.HasHeading term
    ∃ inversion? : Option Visit,
      Rule.headingOrder.check s =
          (inversion?.toList.map fun v =>
            ⟨"heading-order", .error, some (Location.ofRange s.text v.start v.stop),
              "Headings must follow the canonical order defined for LLM-facing files".toList⟩) ++
          (if missing = [] then [] else
            [⟨"heading-order", .error, none,
              "Missing required headings: ".toList ++ [',', ' '].intercalate missing⟩]) ∧
        (inversion? = none ↔ InOrder ranks) ∧
        (∀ v, inversion? = some v ↔ FirstInversion ranks v) ∧
        (Rule.headingOrder.check s = [] ↔
          InOrder ranks ∧ ∀ term ∈ terms, s.tree.HasHeading term) := by
  intro terms ranks missing
  have all : missing = [] ↔ ∀ term ∈ terms, s.tree.HasHeading term := by
    simp only [missing, filter_eq_nil_iff, decide_eq_true_eq, not_not]
  have checked : Rule.headingOrder.check s =
      ((firstInversion? 0 ranks).toList.map fun v =>
        ⟨"heading-order", .error, some (Location.ofRange s.text v.start v.stop),
          "Headings must follow the canonical order defined for LLM-facing files".toList⟩) ++
      (if missing = [] then [] else
        [⟨"heading-order", .error, none,
          "Missing required headings: ".toList ++ [',', ' '].intercalate missing⟩]) := by
    rw [Rule.check_eq strict, Rule.findings, headingOrderFindings, rankedHeadings_eq,
      missingHeadings_eq, map_append, map_map]
    refine congrArg₂ _ rfl ?_
    simp only [List.isEmpty_iff]
    split <;> rfl
  refine ⟨firstInversion? 0 ranks, checked, firstInversion?_zero_eq_none_iff,
    fun v => firstInversion?_eq_some_iff, ?_⟩
  rw [checked, append_eq_nil_iff, map_eq_nil_iff, Option.toList_eq_nil_iff,
    firstInversion?_zero_eq_none_iff, ← all, ite_eq_left_iff]
  exact and_congr_right fun _ => not_imp_comm.trans (by simp)

/-- A quoted heading, an underlined one and a repeated one, for a vocabulary that repeats a term in
another case. -/
theorem check_headingOrder_inverted :
    let t := "> # Rules\n\nScope\n=====\n\n## rules\n".toList
    let terms := ["Scope".toList, "Rules".toList, "SCOPE".toList, "Naming".toList]
    let settings : Settings := { Settings.standard with
      tiers := ⟨["a.md".toList], [], []⟩
      vocabulary := { Vocabulary.standard with canonicalHeadings := terms } }
    ∃ l tree, Linter.build settings [] = .ok l ∧ Document.parse t = .ok tree ∧
      l.classify "a.md".toList = .strict ∧
      Rule.headingOrder.check (l.subject "a.md".toList t tree) =
        [⟨"heading-order", .error, some ⟨⟨3, 1⟩, 11, 23⟩,
            "Headings must follow the canonical order defined for LLM-facing files".toList⟩,
          ⟨"heading-order", .error, none, "Missing required headings: Naming".toList⟩] := by
  intro t terms settings
  obtain ⟨l, built, same, -, strict⟩ := Linter.exists_build_strict settings rfl
  -- what is computed of the document: where the ranks decrease, and the terms without a heading
  have facts : (Document.parse t).toOption.map (fun tree =>
      ((firstInversion? 0 (tree.headingRanks terms)).map fun v => (v.start, v.stop),
        terms.filter fun term => ¬tree.HasHeading term)) =
      some (some (11, 23), ["Naming".toList]) := by decide +kernel
  obtain ⟨tree, found, facts⟩ := Option.map_eq_some_iff.1 facts
  obtain ⟨inverted, absent⟩ := Prod.mk.inj facts
  obtain ⟨v, inversion, range⟩ := Option.map_eq_some_iff.1 inverted
  obtain ⟨start, stop⟩ := Prod.mk.inj range
  obtain ⟨inversion?, checked, -, first, -⟩ :=
    check_headingOrder (l.subject "a.md".toList t tree) strict
  have vocabulary : (l.subject "a.md".toList t tree).settings.vocabulary.canonicalHeadings =
      terms := congrArg (·.vocabulary.canonicalHeadings) same
  have missing : (terms.filter fun term =>
      ¬(l.subject "a.md".toList t tree).tree.HasHeading term) = ["Naming".toList] := absent
  rw [vocabulary] at checked first
  rw [(first v).2 (firstInversion?_eq_some_iff.1 inversion), missing, Option.toList_some,
    map_singleton, start, stop] at checked
  exact ⟨l, tree, built, eq_ok_of_toOption found, strict, checked⟩

end Rule

end TierLint
