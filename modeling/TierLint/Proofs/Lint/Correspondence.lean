import TierLint.Lint.Rule
import TierLint.Proofs.Lexicon.Rebroken
import TierLint.Proofs.Lint.Position
import TierLint.Proofs.Syntax.Prose
import TierLint.Proofs.Syntax.Traversal

/-!
# Subjects that rules judge alike

Two subjects correspond if their paragraphs, headings and strong emphasis are alike one by one and
their prose runs have the same texts, each pair at positions that are related (`Corresponds`). Every
rule but the one on line lengths, which reads the raw text, looks at nothing else, so it reports the
same on both, at related positions (`Corresponds.check`).
-/

set_option autoImplicit false

namespace TierLint

open Element

theorem isEmpty_eq_of_forall₂ {α β : Type} {R : α → β → Prop} {xs : List α} {ys : List β}
    (h : List.Forall₂ R xs ys) : xs.isEmpty = ys.isEmpty := by
  cases h <;> rfl

theorem forall₂_filter {α β : Type} {R : α → β → Prop} {p : α → Bool} {q : β → Bool}
    (agree : ∀ x y, R x y → p x = q y) {xs : List α} {ys : List β} (h : List.Forall₂ R xs ys) :
    List.Forall₂ R (xs.filter p) (ys.filter q) :=
  List.rel_filter (fun {x y} hxy => Bool.eq_iff_iff.1 (agree x y hxy)) h

theorem map_eq_of_forall₂ {α β γ : Type} {R : α → β → Prop} {f : α → γ} {g : β → γ}
    (agree : ∀ x y, R x y → f x = g y) {xs : List α} {ys : List β} (h : List.Forall₂ R xs ys) :
    xs.map f = ys.map g := by
  induction h with
  | nil => rfl
  | cons first _ ih => rw [List.map_cons, List.map_cons, agree _ _ first, ih]

/-- No entry of the vocabulary has a line break in it. -/
structure Vocabulary.Unbroken (v : Vocabulary) : Prop where
  canonical : ∀ t ∈ v.canonicalHeadings, TierLint.Unbroken t
  governance : ∀ t ∈ v.governanceHeadings, TierLint.Unbroken t
  directive : ∀ t ∈ v.directiveVerbs, TierLint.Unbroken t
  modal : ∀ t ∈ v.modalVerbs, TierLint.Unbroken t
  subjective : ∀ t ∈ v.subjectiveWords, TierLint.Unbroken t
  narrative : ∀ t ∈ v.narrativeOpeners, TierLint.Unbroken t

theorem Vocabulary.Unbroken.lexicon {v : Vocabulary} (h : v.Unbroken) :
    (Lexicon.ofVocabulary v).Unbroken :=
  ⟨h.modal, h.subjective, h.narrative⟩

/-- Findings with one message, at positions that are related, or both about the whole document. -/
structure Finding.Like (near : Position → Position → Prop) (f g : Finding) : Prop where
  message : f.message = g.message
  location : Option.Rel (fun l m => near l.position m.position) f.location? g.location?

/-- Diagnostics of one rule with one message, at positions that are related, or both about the
whole document. -/
structure Diagnostic.Like (near : Position → Position → Prop) (d e : Diagnostic) : Prop where
  code : d.code = e.code
  severity : d.severity = e.severity
  message : d.message = e.message
  location : Option.Rel (fun l m => near l.position m.position) d.location? e.location?

/-- What related positions agree on, the locations of both diagnostics do. -/
theorem Diagnostic.Like.map_location_eq {γ : Type} {near : Position → Position → Prop}
    {d e : Diagnostic} (h : Diagnostic.Like near d e) {f : Location → γ}
    (agree : ∀ l m, near l.position m.position → f l = f m) :
    d.location?.map f = e.location?.map f := by
  obtain ⟨-, -, -, location⟩ := h
  generalize d.location? = l? at location ⊢
  generalize e.location? = m? at location ⊢
  cases location with
  | none => rfl
  | some related => exact congrArg some (agree _ _ related)

/-- Nodes that are alike, at positions that are related. -/
structure Subject.NodesLike (w : Slack) (near : Position → Position → Prop) (s s' : Subject)
    (v v' : Visit) : Prop where
  position : near (s.locate v).position (s'.locate v').position
  element : ∃ last, Alike w last [v.element] [v'.element]

/-- Runs with one text, at positions that are related. -/
structure Subject.RunsLike (near : Position → Position → Prop) (s s' : Subject)
    (r r' : TextRun) : Prop where
  text : r.text = r'.text
  position : near (Position.ofOffset s.text r.start) (Position.ofOffset s'.text r'.start)

/-- Two subjects under the same settings whose nodes and prose runs are alike one by one, at
positions that are related. Where line ends may differ, no word that is looked for has any. -/
structure Subject.Corresponds (w : Slack) (near : Position → Position → Prop) (s s' : Subject) :
    Prop where
  settings : s.settings = s'.settings
  lexicon : s.lexicon = s'.lexicon
  tier : s.tier = s'.tier
  words : w.lineEnds = true → s.settings.vocabulary.Unbroken ∧ s.lexicon.Unbroken
  nodes : ∀ {k : Kind}, k.isSought = true →
    List.Forall₂ (NodesLike w near s s') (s.tree.nodesOf k) (s'.tree.nodesOf k)
  runs : List.Forall₂ (RunsLike near s s') s.proseRuns s'.proseRuns

/-! ## Subjects with trees that are alike -/

namespace Subject

variable {w : Slack} {near : Position → Position → Prop} {s s' : Subject}
variable {M : Text → Text → Prop} {last : Bool} {es fs : List Element} {b b' : Text}

section Segments

variable (tracks : Tracks w M) (alike : Alike w last es fs) (front : M b b')
variable (ht : b ++ textOf es <+: s.text) (ht' : b' ++ textOf fs <+: s'.text)
variable (hnear : ∀ {c c'}, c <+: b ++ textOf es → c' <+: b' ++ textOf fs → M c c' →
  near (Position.start.past c) (Position.start.past c'))

include ht ht' hnear

theorem near_of_near {n n' : Nat} (h : Near M (b ++ textOf es) (b' ++ textOf fs) n n') :
    near (Position.ofOffset s.text n) (Position.ofOffset s'.text n') := by
  obtain ⟨c, c', hc, hc', rfl, rfl, front⟩ := h
  rw [Position.ofOffset_of_isPrefix (hc.trans ht), Position.ofOffset_of_isPrefix (hc'.trans ht')]
  exact hnear hc hc' front

include tracks alike front

/-- Stretches of two documents that are alike hold nodes that are alike, one by one. -/
theorem nodesBehind_like (k : Kind) (above above' : List Element) :
    List.Forall₂ (NodesLike w near s s') (nodesBehind k above b es)
      (nodesBehind k above' b' fs) :=
  (alike.nodesBehind tracks k front (List.prefix_refl _) (List.prefix_refl _) above above').imp
    fun _ _ ⟨start, element⟩ => ⟨near_of_near ht ht' hnear start, element⟩

/-- Stretches of two documents that are alike hold the same prose runs. -/
theorem proseRunsFromAll_like {above above' : List Element}
    (code : above.any (·.kind.isCode) = above'.any (·.kind.isCode)) :
    List.Forall₂ (RunsLike near s s')
      ((TextRun.runsFromAll above (Text.byteLength b) none es).filter (!·.inCode))
      ((TextRun.runsFromAll above' (Text.byteLength b') none fs).filter (!·.inCode)) := by
  have runs := TextRun.runsFromAll_like tracks alike front (List.prefix_refl _)
    (List.prefix_refl _) .none code
  refine (forall₂_filter (fun r r' like => ?_) runs).imp fun r r' like =>
    ⟨like.text, near_of_near ht ht' hnear like.start⟩
  rw [like.inCode]

end Segments

end Subject

namespace Subject.Corresponds

variable {w : Slack} {near : Position → Position → Prop} {s s' : Subject}

theorem rebroken_prose {e f : Element} {last : Bool} (h : Alike w last [e] [f]) :
    Rebroken w.lineEnds last e.prose f.prose := by
  have := h.rebroken
  rwa [proseOf_cons, proseOf_cons, proseOf, List.append_nil, List.append_nil] at this

theorem hasStrong_eq {e f : Element} {last : Bool} (h : Alike w last [e] [f]) {t u : Text}
    {free : Bool} (text : Rebroken free false t u) : Rule.hasStrong e t = Rule.hasStrong f u := by
  have tracks : Tracks w fun _ _ => True := ⟨by simp, by simp, by simp, by simp⟩
  rw [Rule.hasStrong, Rule.hasStrong, nodesOf_eq, nodesOf_eq,
    isEmpty_eq_of_forall₂ (h.nodesBehind tracks .strong trivial (List.prefix_refl _)
      (List.prefix_refl _) [] []),
    text.holds_eq (by decide) (by decide), text.holds_eq (by decide) (by decide)]

/-- The rules judge two paragraphs alike. -/
structure ParagraphsLike (near : Position → Position → Prop) (s s' : Subject)
    (x x' : Visit × Text) : Prop where
  position : near (s.locate x.1).position (s'.locate x'.1).position
  isEmpty : x.2.isEmpty = x'.2.isEmpty
  directive : Rule.isDirective s.lexicon x.2 = Rule.isDirective s.lexicon x'.2
  subjective : s.lexicon.countSubjective x.2 = s.lexicon.countSubjective x'.2
  modal : s.lexicon.countModal x.2 = s.lexicon.countModal x'.2
  strong : Rule.hasStrong x.1.element x.2 = Rule.hasStrong x'.1.element x'.2

theorem paragraphs (h : Corresponds w near s s') :
    List.Forall₂ (ParagraphsLike near s s') s.paragraphs s'.paragraphs := by
  have nodes := h.nodes (k := .paragraph) rfl
  refine forall₂_filter (R := ParagraphsLike near s s') (fun x x' like => ?_) ?_
  · rw [like.isEmpty]
  · rw [List.forall₂_map_left_iff, List.forall₂_map_right_iff]
    refine nodes.imp fun v v' ⟨position, last, alike⟩ => ?_
    have text := (rebroken_prose alike).trim
    have strong := hasStrong_eq alike text
    by_cases free : w.lineEnds = true
    · have words := (h.words free).2
      exact ⟨position, text.isEmpty_eq, text.isDirective_eq words, text.countSubjective_eq words,
        text.countModal_eq words, strong⟩
    · rw [Bool.not_eq_true] at free
      rw [free] at text
      have same := text.eq_of_strict
      exact ⟨position, by rw [same], by rw [same], by rw [same], by rw [same], strong⟩

/-- Headings at positions that are related, whose terms are the same for every word looked up. -/
structure HeadingsLike (near : Position → Position → Prop) (s s' : Subject)
    (x x' : Visit × Text) : Prop where
  position : near (s.locate x.1).position (s'.locate x'.1).position
  term : ∀ t, t ∈ s.settings.vocabulary.canonicalHeadings ∨
    t ∈ s.settings.vocabulary.governanceHeadings →
      (Unicode.lowercase t == x.2) = (Unicode.lowercase t == x'.2)

theorem headings (h : Corresponds w near s s') :
    List.Forall₂ (HeadingsLike near s s') s.headings s'.headings := by
  have nodes := h.nodes (k := .heading) rfl
  rw [Subject.headings, Subject.headings, List.forall₂_map_left_iff, List.forall₂_map_right_iff]
  refine nodes.imp fun v v' ⟨position, last, alike⟩ => ⟨position, fun t ht => ?_⟩
  have text := (rebroken_prose alike).trim
  rw [headingTerm, headingTerm]
  by_cases free : w.lineEnds = true
  · have words := (h.words free).1
    exact text.lowercase_beq_eq (ht.elim (words.canonical t) (words.governance t))
  · rw [Bool.not_eq_true] at free
    rw [free] at text
    rw [text.eq_of_strict]

/-! ## Findings -/

theorem missingHeadings_eq (h : Corresponds w near s s') {terms : List Text}
    (hterms : ∀ t ∈ terms, t ∈ s.settings.vocabulary.canonicalHeadings ∨
      t ∈ s.settings.vocabulary.governanceHeadings) :
    s.missingHeadings terms = s'.missingHeadings terms := by
  refine List.filter_congr fun t ht => ?_
  have found : ∀ {xs ys : List (Visit × Text)}, List.Forall₂ (HeadingsLike near s s') xs ys →
      (xs.map (·.2)).contains (Unicode.lowercase t) =
        (ys.map (·.2)).contains (Unicode.lowercase t) := by
    intro xs ys likes
    induction likes with
    | nil => rfl
    | cons like _ ih =>
      rw [List.map_cons, List.map_cons, List.contains_cons, List.contains_cons, ih,
        like.term t (hterms t ht)]
  rw [found h.headings]

theorem rankedHeadings_like {terms : List Text}
    (hterms : ∀ t ∈ terms, t ∈ s.settings.vocabulary.canonicalHeadings ∨
      t ∈ s.settings.vocabulary.governanceHeadings) {xs ys : List (Visit × Text)}
    (h : List.Forall₂ (HeadingsLike near s s') xs ys) :
    List.Forall₂
      (fun x y => x.1 = y.1 ∧ near (s.locate x.2).position (s'.locate y.2).position)
      (Rule.rankedHeadings terms xs) (Rule.rankedHeadings terms ys) := by
  refine List.rel_filterMap (R := HeadingsLike near s s') (fun {x y} like => ?_) h
  obtain ⟨v, term⟩ := x
  obtain ⟨v', term'⟩ := y
  have same : terms.findIdx? (fun t => Unicode.lowercase t == term) =
      terms.findIdx? (fun t => Unicode.lowercase t == term') := by
    induction terms with
    | nil => rfl
    | cons t terms ih =>
      rw [List.findIdx?_cons, List.findIdx?_cons, like.term t (hterms t List.mem_cons_self),
        ih fun t ht => hterms t (List.mem_cons_of_mem _ ht)]
  dsimp only
  rw [same]
  cases terms.findIdx? (fun t => Unicode.lowercase t == term') with
  | none => exact .none
  | some i => exact .some ⟨rfl, like.position⟩

theorem firstInversion?_like {xs ys : List (Nat × Visit)}
    (h : List.Forall₂
      (fun x y => x.1 = y.1 ∧ near (s.locate x.2).position (s'.locate y.2).position) xs ys)
    (last : Nat) :
    Option.Rel (fun v v' => near (s.locate v).position (s'.locate v').position)
      (Rule.firstInversion? last xs) (Rule.firstInversion? last ys) := by
  induction h generalizing last with
  | nil => exact .none
  | @cons x y xs ys first _ ih =>
    obtain ⟨i, v⟩ := x
    obtain ⟨j, v'⟩ := y
    obtain ⟨rfl, position⟩ := first
    rw [Rule.firstInversion?, Rule.firstInversion?]
    split
    · exact .some position
    · exact ih i

theorem headingOrderFindings (h : Corresponds w near s s') :
    List.Forall₂ (Finding.Like near) (Rule.headingOrderFindings s)
      (Rule.headingOrderFindings s') := by
  have listed : ∀ t ∈ s.settings.vocabulary.canonicalHeadings,
      t ∈ s.settings.vocabulary.canonicalHeadings ∨
        t ∈ s.settings.vocabulary.governanceHeadings := fun _ => .inl
  have inversion := firstInversion?_like (rankedHeadings_like listed h.headings) 0
  rw [Rule.headingOrderFindings, Rule.headingOrderFindings, ← h.settings,
    ← h.missingHeadings_eq fun _ => .inl]
  refine List.rel_append ?_ ?_
  · generalize Rule.firstInversion? 0 _ = x at inversion ⊢
    generalize Rule.firstInversion? 0 _ = y at inversion ⊢
    cases inversion with
    | none => exact .nil
    | some position => exact .cons ⟨rfl, .some position⟩ .nil
  · split
    · exact .nil
    · exact .cons ⟨rfl, .none⟩ .nil

theorem runFindings (h : Corresponds w near s s') (flagged : Text → Bool) (message : Text) :
    List.Forall₂ (Finding.Like near) (Rule.runFindings s flagged message)
      (Rule.runFindings s' flagged message) := by
  rw [Rule.runFindings, Rule.runFindings, List.forall₂_map_left_iff, List.forall₂_map_right_iff]
  refine (forall₂_filter (fun x y like => ?_) h.runs).imp fun x y like =>
    ⟨rfl, .some like.position⟩
  rw [like.text]

theorem paragraphFindings (h : Corresponds w near s s') {flagged flagged' : Visit × Text → Bool}
    (agree : ∀ x x', ParagraphsLike near s s' x x' → flagged x = flagged' x') (message : Text) :
    List.Forall₂ (Finding.Like near) (Rule.paragraphFindings s flagged message)
      (Rule.paragraphFindings s' flagged' message) := by
  rw [Rule.paragraphFindings, Rule.paragraphFindings, List.forall₂_map_left_iff,
    List.forall₂_map_right_iff]
  exact (forall₂_filter agree h.paragraphs).imp fun x y like => ⟨rfl, .some like.position⟩

theorem moderateHeadingsFindings (h : Corresponds w near s s') :
    List.Forall₂ (Finding.Like near) (Rule.moderateHeadingsFindings s)
      (Rule.moderateHeadingsFindings s') := by
  rw [Rule.moderateHeadingsFindings, Rule.moderateHeadingsFindings, ← h.settings,
    ← h.missingHeadings_eq fun _ => .inr]
  split
  · exact .nil
  · exact .cons ⟨rfl, .none⟩ .nil

/-- Every rule but the one on line lengths finds the same, at related positions. -/
theorem findings (h : Corresponds w near s s') {r : Rule} (hr : r ≠ .lineLength) :
    List.Forall₂ (Finding.Like near) (r.findings s) (r.findings s') := by
  cases r with
  | headingOrder => exact h.headingOrderFindings
  | noStrong =>
    rw [Rule.findings, Rule.findings, Rule.noStrongFindings, Rule.noStrongFindings,
      List.forall₂_map_left_iff, List.forall₂_map_right_iff]
    exact (h.nodes (k := .strong) rfl).imp fun v v' like => ⟨rfl, .some like.position⟩
  | noEmoji => exact h.runFindings _ _
  | noModalVerbs =>
    rw [Rule.findings, Rule.findings, ← h.lexicon]
    exact h.runFindings _ _
  | noNarrative =>
    refine h.paragraphFindings (fun x x' like => ?_) _
    simp only [← h.lexicon, like.directive]
  | lineLength => exact absurd rfl hr
  | moderateHeadings => exact h.moderateHeadingsFindings
  | moderateMarkdown =>
    refine h.paragraphFindings (fun x x' like => ?_) _
    simp only [← h.lexicon, ← h.settings, like.subjective, like.modal, like.strong]
  | lightMarkdown =>
    refine h.paragraphFindings (fun x x' like => ?_) _
    simp only [← h.lexicon, ← h.settings, like.subjective, like.modal]

/-- So it reports the same. -/
theorem check (h : Corresponds w near s s') {r : Rule} (hr : r ≠ .lineLength) :
    List.Forall₂ (Diagnostic.Like near) (r.check s) (r.check s') := by
  rw [Rule.check, Rule.check, ← h.tier]
  split
  · rw [List.forall₂_map_left_iff, List.forall₂_map_right_iff]
    exact (h.findings hr).imp fun f g like => ⟨rfl, rfl, like.message, like.location⟩
  · exact .nil

end Subject.Corresponds

end TierLint
