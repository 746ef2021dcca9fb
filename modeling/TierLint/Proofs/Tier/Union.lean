import TierLint.Proofs.Tier.Patterns

/-!
# Lists of patterns are unions

Each pattern of a tier speaks for itself: a path gets the first tier that has a pattern which, as
the only one of a classifier, gives it this tier (`takesAlone`). So only the members of the lists
count, not their order or number, and more patterns in a tier can only move paths into this tier
(`classify_union`).
-/

set_option autoImplicit false

namespace TierLint

/-! ## One pattern alone -/

/-- The pattern as the only one, in the given tier. -/
def TierPatterns.only (tier : Tier) (pattern : Text) : TierPatterns where
  strict := if tier = .strict then [pattern] else []
  moderate := if tier = .moderate then [pattern] else []
  light := if tier = .light then [pattern] else []

theorem TierPatterns.ofTier_only (tier other : Tier) (pattern : Text) :
    (TierPatterns.only tier pattern).ofTier other =
      if other = tier ∧ tier ≠ .none then [pattern] else [] := by
  cases tier <;> cases other <;> rfl

/-- Seen from the root, a classifier with this pattern alone gives the path the pattern's tier. -/
def takesAlone (root : Text) (tier : Tier) (path pattern : Text) : Bool :=
  (Classifier.build root (.only tier pattern)).toOption.any (·.classify path == tier)

/-- Only tiers that documents are assigned to by pattern come first. -/
theorem Tier.first_only {tier : Tier} (assigned : tier ≠ .none) (b : Bool) :
    Tier.first (fun other => if other = tier then b else false) = if b then tier else .none := by
  rw [first_eq]
  cases tier with
  | none => exact absurd rfl assigned
  | strict | moderate | light => cases b <;> rfl

theorem Classifier.classify_only {root : Text} {tier : Tier} (assigned : tier ≠ .none)
    {pattern : Text} {c : Classifier} (built : build root (.only tier pattern) = .ok c)
    (path : Text) :
    c.classify path =
      if (seenFrom root path).any (tier.accepts pattern ·) then tier else .none := by
  rw [classify_eq_first built, ← Tier.first_only assigned]
  congr 1
  funext other
  rw [TierPatterns.ofTier_only]
  by_cases same : other = tier
  · rw [if_pos ⟨same, assigned⟩, if_pos same, same]
    simp only [List.any_cons, List.any_nil, Bool.or_false]
  · rw [if_neg fun h => same h.1, if_neg same]
    cases seenFrom root path <;> rfl

/-- A classifier can be built of one pattern if the pattern can be read. -/
theorem Classifier.exists_build_only (root : Text) {tier : Tier} {pattern : Text}
    {p : PathPattern} (read : PathPattern.parse tier pattern = .ok p) :
    ∃ c, build root (.only tier pattern) = .ok c := by
  apply exists_build_iff.2
  intro other t ht
  rw [TierPatterns.ofTier_only] at ht
  split at ht
  · rename_i same
    rw [List.mem_singleton.1 ht, same.1]
    exact ⟨p, read⟩
  · simp at ht

/-- Alone, a pattern gives its tier to the paths that it accepts as seen from the root. -/
theorem takesAlone_eq (root : Text) {tier : Tier} (assigned : tier ≠ .none) (path : Text)
    {pattern : Text} {p : PathPattern} (read : PathPattern.parse tier pattern = .ok p) :
    takesAlone root tier path pattern = (seenFrom root path).any (tier.accepts pattern ·) := by
  obtain ⟨c, built⟩ := Classifier.exists_build_only root read
  rw [takesAlone, built]
  show (c.classify path == tier) = _
  rw [Classifier.classify_only assigned built]
  cases (seenFrom root path).any (tier.accepts pattern ·) with
  | true => exact beq_self_eq_true tier
  | false =>
    rw [if_neg Bool.false_ne_true, beq_eq_false_iff_ne]
    exact assigned.symm

/-! ## Lists of patterns -/

/-- If `p` and `p'` differ only in that `p'` takes `a` too, `p'` finds what `p` finds, or `a`. -/
theorem find?_eq_or {α : Type} {p p' : α → Bool} {a : α} (others : ∀ b, b ≠ a → p' b = p b)
    (more : p a = true → p' a = true) (l : List α) :
    l.find? p' = l.find? p ∨ l.find? p' = some a := by
  induction l with
  | nil => exact .inl rfl
  | cons b l ih =>
    by_cases same : b = a
    · subst same
      cases new : p' b with
      | true =>
        right
        rw [List.find?_cons_of_pos new]
      | false =>
        have old : p b = false := by
          rw [Bool.eq_false_iff]
          intro takes
          rw [more takes] at new
          cases new
        rw [List.find?_cons_of_neg (by simp [new]), List.find?_cons_of_neg (by simp [old])]
        exact ih
    · rw [List.find?_cons, List.find?_cons, others b same]
      cases p b with
      | true => exact .inl rfl
      | false => exact ih

/-- The lists of a tier have the same members, in any order and number. -/
def TierPatterns.SameMembers (patterns patterns' : TierPatterns) (tier : Tier) : Prop :=
  ∀ t, t ∈ patterns.ofTier tier ↔ t ∈ patterns'.ofTier tier

/-- Whether some member has a property depends on nothing but the members. -/
theorem TierPatterns.SameMembers.any_eq {patterns patterns' : TierPatterns} {tier : Tier}
    (same : patterns.SameMembers patterns' tier) (p : Text → Bool) :
    (patterns.ofTier tier).any p = (patterns'.ofTier tier).any p := by
  rw [Bool.eq_iff_iff, List.any_eq_true, List.any_eq_true]
  exact exists_congr fun t => and_congr_left fun _ => same t

namespace Classifier

variable {root : Text} {patterns patterns' : TierPatterns} {c : Classifier}

/-- The first tier with a pattern that takes the path alone is the path's. -/
theorem classify_eq_first_takesAlone (built : build root patterns = .ok c) (path : Text) :
    c.classify path =
      Tier.first fun tier => (patterns.ofTier tier).any (takesAlone root tier path) := by
  rw [classify_eq_first built]
  congr 1
  funext tier
  by_cases assigned : tier = .none
  · rw [assigned]
    cases seenFrom root path <;> rfl
  · -- each pattern of the tier can be read, so alone it does what it does among the others
    have alone : ∀ t ∈ patterns.ofTier tier,
        takesAlone root tier path t = (seenFrom root path).any (tier.accepts t ·) := by
      intro t ht
      obtain ⟨p, read⟩ := exists_build_iff.1 ⟨c, built⟩ tier t ht
      exact takesAlone_eq root assigned path read
    rw [Bool.eq_iff_iff, List.any_eq_true]
    constructor
    · intro taken
      obtain ⟨relative, seen, taken⟩ := (Option.any_eq_true ..).1 taken
      obtain ⟨t, ht, accepted⟩ := List.any_eq_true.1 taken
      refine ⟨t, ht, ?_⟩
      rw [alone t ht, seen]
      exact accepted
    · rintro ⟨t, ht, taken⟩
      rw [alone t ht] at taken
      obtain ⟨relative, seen, accepted⟩ := (Option.any_eq_true ..).1 taken
      rw [seen]
      exact List.any_eq_true.2 ⟨t, ht, accepted⟩

/-- Members are what a classifier is built of. -/
theorem exists_build_of_members (built : build root patterns = .ok c)
    (members : ∀ tier, ∀ t ∈ patterns'.ofTier tier, t ∈ patterns.ofTier tier) :
    ∃ c', build root patterns' = .ok c' := by
  apply exists_build_iff.2
  intro tier t ht
  exact exists_build_iff.1 ⟨c, built⟩ tier t (members tier t ht)

/-- More patterns in one tier can only move paths into this tier. -/
theorem classify_of_more_patterns {c' : Classifier} {tier : Tier}
    (built : build root patterns = .ok c) (built' : build root patterns' = .ok c')
    (more : ∀ t ∈ patterns.ofTier tier, t ∈ patterns'.ofTier tier)
    (others : ∀ other, other ≠ tier → patterns.SameMembers patterns' other) (path : Text) :
    c'.classify path = c.classify path ∨ c'.classify path = tier := by
  rw [classify_eq_first_takesAlone built, classify_eq_first_takesAlone built', Tier.first,
    Tier.first]
  have kept : ∀ other, other ≠ tier →
      (patterns'.ofTier other).any (takesAlone root other path) =
        (patterns.ofTier other).any (takesAlone root other path) := by
    intro other apart
    exact ((others other apart).any_eq _).symm
  have grown : (patterns.ofTier tier).any (takesAlone root tier path) = true →
      (patterns'.ofTier tier).any (takesAlone root tier path) = true := by
    intro taken
    obtain ⟨t, ht, alone⟩ := List.any_eq_true.1 taken
    exact List.any_eq_true.2 ⟨t, more t ht, alone⟩
  rcases find?_eq_or kept grown [.strict, .moderate, .light] with same | moved
  · left
    rw [same]
  · right
    rw [moved]
    rfl

/-- **Lists of patterns are unions.** Each pattern of a classifier makes a classifier alone, and
a path has the first tier with a pattern that alone gives it this tier. So lists with the same
members make classifiers that agree on all paths, and more patterns in one tier can only move
paths into it. -/
theorem classify_union (built : build root patterns = .ok c) :
    (∀ tier, ∀ t ∈ patterns.ofTier tier, ∃ alone, build root (.only tier t) = .ok alone) ∧
    (∀ path, c.classify path =
      Tier.first fun tier => (patterns.ofTier tier).any (takesAlone root tier path)) ∧
    (∀ patterns', (∀ tier, patterns.SameMembers patterns' tier) →
      ∃ c', build root patterns' = .ok c' ∧ ∀ path, c'.classify path = c.classify path) ∧
    (∀ patterns' c' tier, build root patterns' = .ok c' →
      (∀ t ∈ patterns.ofTier tier, t ∈ patterns'.ofTier tier) →
      (∀ other, other ≠ tier → patterns.SameMembers patterns' other) →
      ∀ path, c'.classify path = c.classify path ∨ c'.classify path = tier) := by
  refine ⟨?_, classify_eq_first_takesAlone built, ?_, ?_⟩
  · intro tier t ht
    obtain ⟨p, read⟩ := exists_build_iff.1 ⟨c, built⟩ tier t ht
    exact exists_build_only root read
  · intro patterns' same
    obtain ⟨c', built'⟩ := exists_build_of_members built fun tier t ht => (same tier t).2 ht
    refine ⟨c', built', fun path => ?_⟩
    rw [classify_eq_first_takesAlone built, classify_eq_first_takesAlone built']
    congr 1
    funext tier
    exact ((same tier).any_eq _).symm
  · intro patterns' c' tier built' more others path
    exact classify_of_more_patterns built built' more others path

/-- In either order, two patterns that spell out one hidden segment each take a path with the one,
and none with both. -/
theorem classify_union_of_hidden :
    ∃ c, build "/repo".toList ⟨[".a/*".toList, "*/.b".toList], [], []⟩ = .ok c ∧
      c.classify ".a/b".toList = .strict ∧ c.classify ".a/.b".toList = .none ∧
      (∀ path, c.classify path = Tier.first fun tier =>
        ((TierPatterns.mk [".a/*".toList, "*/.b".toList] [] []).ofTier tier).any
          (takesAlone "/repo".toList tier path)) ∧
      ∃ c', build "/repo".toList ⟨["*/.b".toList, ".a/*".toList], [], []⟩ = .ok c' ∧
        c'.classify ".a/b".toList = .strict ∧ c'.classify ".a/.b".toList = .none := by
  have ok : (build "/repo".toList ⟨[".a/*".toList, "*/.b".toList], [], []⟩).isOk = true := by
    decide +kernel
  have taken : (build "/repo".toList ⟨[".a/*".toList, "*/.b".toList], [], []⟩).toOption.map
      (fun c => (c.classify ".a/b".toList, c.classify ".a/.b".toList)) =
        some (.strict, .none) := by decide +kernel
  obtain ⟨c, built⟩ := exists_of_isOk ok
  rw [built] at taken
  obtain ⟨one, both⟩ := Prod.mk.inj (Option.some.inj taken)
  obtain ⟨-, first, members, -⟩ := classify_union built
  refine ⟨c, built, one, both, first, ?_⟩
  obtain ⟨c', built', same⟩ := members ⟨["*/.b".toList, ".a/*".toList], [], []⟩ <| by
    intro tier t
    cases tier with
    | strict => exact (List.Perm.swap _ _ []).mem_iff
    | moderate | light | none => exact Iff.rfl
  exact ⟨c', built', (same _).trans one, (same _).trans both⟩

end Classifier

end TierLint
