import TierLint.Lint.Rule
import TierLint.Proofs.Text.Rebroken
import TierLint.Proofs.Unicode.CaseMapping

/-!
# Words do not see line breaks

Word lists without line breaks find the same words in two texts that differ in line breaks only: no
word reaches into a break, and a break is no word character in either form. A carriage return in
front of a line feed adds a place between the two, which is no word boundary
(`WordList.countFrom_eq`). So the lexicon judges both texts alike, and looks up the same headings.
-/

set_option autoImplicit false

namespace TierLint

open Unicode

/-- The text has no line break in it. -/
def Unbroken (t : Text) : Prop := '\n' ∉ t ∧ '\r' ∉ t

instance (t : Text) : Decidable (Unbroken t) := inferInstanceAs (Decidable (_ ∧ _))

theorem Unbroken.tail {d : Char} {w : Text} (h : Unbroken (d :: w)) : Unbroken w :=
  ⟨fun mem => h.1 (List.mem_cons_of_mem d mem), fun mem => h.2 (List.mem_cons_of_mem d mem)⟩

theorem Unbroken.head {d : Char} {w : Text} (h : Unbroken (d :: w)) :
    (d == '\n') = false ∧ (d == '\r') = false :=
  ⟨beq_eq_false_iff_ne.2 fun eq => h.1 (eq ▸ List.mem_cons_self),
    beq_eq_false_iff_ne.2 fun eq => h.2 (eq ▸ List.mem_cons_self)⟩

variable {free : Bool} {t u : Text}

namespace WordList

theorem not_sameFolded_of_unbroken {d : Char} {w : Text} (h : Unbroken (d :: w)) :
    sameFolded d '\n' = false ∧ sameFolded d '\r' = false := by
  have ne := h.head
  rw [beq_eq_false_iff_ne, beq_eq_false_iff_ne] at ne
  exact ⟨Bool.eq_false_iff.2 fun same => ne.1 (eq_of_sameFolded (by decide) (by decide) same),
    Bool.eq_false_iff.2 fun same => ne.2 (eq_of_sameFolded (by decide) (by decide) same)⟩

/-- A word is taken from both texts or from neither, and leaves texts that differ in breaks only. -/
theorem take?_rel {w : Text} (hw : Unbroken w) (h : Rebroken free false t u)
    (before : Option Char) :
    Option.Rel (fun x y => x.1 = y.1 ∧ Rebroken free false x.2 y.2) (take? before w t)
      (take? before w u) := by
  induction w generalizing before t u with
  | nil => exact .some ⟨rfl, h⟩
  | cons d w ih =>
    cases h with
    | nil => exact .none
    | char c h =>
      rw [take?, take?]
      split
      · exact ih hw.tail h (some c)
      · exact .none
    | crlf =>
      obtain ⟨lf, cr⟩ := not_sameFolded_of_unbroken hw
      simp only [take?, lf, cr]
      exact .none
    | final _ ended => cases ended

theorem lf_not_mem_of_take? {w : Text} (hw : Unbroken w) {before : Option Char}
    {r : Option Char × Text} (h : take? before w t = some r) : '\n' ∉ t.take w.length := by
  induction w generalizing before t with
  | nil => simp
  | cons d w ih =>
    cases t with
    | nil => simp
    | cons c t =>
      rw [take?] at h
      split at h
      · rename_i same
        rw [List.length_cons, List.take_succ_cons, List.mem_cons, not_or]
        refine ⟨?_, ih hw.tail h⟩
        rintro rfl
        simp [(not_sameFolded_of_unbroken hw).1] at same
      · cases h

theorem any_isWord_head?_eq (h : Rebroken free false t u) :
    t.head?.any isWord = u.head?.any isWord :=
  h.startsBy_eq (by decide)

theorem standsAt_eq {w : Text} (hw : Unbroken w) (h : Rebroken free false t u)
    (before : Option Char) : standsAt before t w = standsAt before u w := by
  have taken := take?_rel hw h before
  rw [standsAt, standsAt, isWordBoundary, isWordBoundary, any_isWord_head?_eq h]
  generalize take? before w t = x at taken ⊢
  generalize take? before w u = y at taken ⊢
  cases taken with
  | none => rfl
  | @some x y found =>
    obtain ⟨last, rest⟩ := x
    obtain ⟨last', rest'⟩ := y
    obtain ⟨rfl, h⟩ := found
    simp only [Option.any_some, isWordBoundary, any_isWord_head?_eq h]

section Words

variable {words : List Text} (hwords : ∀ w ∈ words, Unbroken w)

include hwords

theorem first?_eq (h : Rebroken free false t u) (before : Option Char) :
    first? words before t = first? words before u := by
  rw [first?, first?]
  induction words with
  | nil => rfl
  | cons w words ih =>
    rw [List.find?_cons, List.find?_cons, standsAt_eq (hwords w List.mem_cons_self) h,
      ih fun w hw => hwords w (List.mem_cons_of_mem _ hw)]

omit hwords in
/-- Nothing stands between the two characters of a break. -/
theorem first?_between (u : Text) : first? words (some '\r') ('\n' :: u) = none := by
  refine List.find?_eq_none.2 fun w _ => ?_
  have inner : isWordBoundary (some '\r') (some '\n') = false := by decide
  simp [standsAt, inner]

theorem lf_not_mem_of_first? {c d : Char} {w : Text} {before : Option Char}
    (h : first? words before (c :: t) = some (d :: w)) : c ≠ '\n' ∧ '\n' ∉ t.take w.length := by
  have stands := List.find?_some h
  have hw := hwords _ (List.mem_of_find?_eq_some h)
  rw [standsAt, Bool.and_eq_true] at stands
  obtain ⟨r, hr, -⟩ := (Option.any_eq_true _ _).1 stands.2
  have := lf_not_mem_of_take? hw hr
  rw [List.length_cons, List.take_succ_cons, List.mem_cons, not_or] at this
  exact ⟨fun eq => this.1 eq.symm, this.2⟩

/-- Words are counted alike. The induction is on the breaks; inside of a word there are none. -/
theorem countFrom_eq (h : Rebroken free false t u) (before : Option Char) (matched : Bool)
    (taken : Nat) (inside : '\n' ∉ t.take taken) :
    countFrom words before matched taken t = countFrom words before matched taken u := by
  induction h generalizing before matched taken with
  | nil => rfl
  | @char c t u h ih =>
    cases taken with
    | succ taken =>
      rw [countFrom, countFrom]
      exact ih _ _ _ fun mem => inside (List.mem_cons_of_mem c mem)
    | zero =>
      rw [countFrom, countFrom, ← first?_eq hwords (.char c h)]
      cases found : first? words before (c :: t) with
      | none => exact ih _ _ 0 (by simp)
      | some w =>
        cases w with
        | nil => simp only [ih (some c) false 0 (by simp)]
        | cons d w =>
          simp only [ih (some c) w.isEmpty w.length (lf_not_mem_of_first? hwords found).2]
  | @crlf t u hf h ih =>
    cases taken with
    | succ taken => simp at inside
    | zero =>
      have behind : countFrom words (some '\r') false 0 ('\n' :: u) =
          countFrom words (some '\n') false 0 u := by
        rw [countFrom, first?_between]
      rw [countFrom, countFrom, ← first?_eq hwords (.crlf hf h)]
      cases found : first? words before ('\n' :: t) with
      | none => simp only [behind, ih (some '\n') false 0 (by simp)]
      | some w =>
        cases w with
        | nil => simp only [behind, ih (some '\n') false 0 (by simp)]
        | cons d w => exact absurd rfl (lf_not_mem_of_first? hwords found).1
  | final _ ended => cases ended

theorem occursFrom_eq (h : Rebroken free false t u) (before : Option Char) :
    occursFrom words before t = occursFrom words before u := by
  induction h generalizing before with
  | nil => rfl
  | @char c t u h ih => rw [occursFrom, occursFrom, first?_eq hwords (.char c h), ih]
  | @crlf t u hf h ih =>
    rw [occursFrom, occursFrom, occursFrom, first?_eq hwords (.crlf hf h), first?_between, ih]
    rfl
  | final _ ended => cases ended

theorem opens_eq (h : Rebroken free false t u) : opens words t = opens words u := by
  rw [opens, opens, Bool.eq_iff_iff, List.any_eq_true, List.any_eq_true]
  refine exists_congr fun w => and_congr_right fun hw => Bool.eq_iff_iff.1 ?_
  have taken := take?_rel (hwords w hw) h none
  generalize take? none w t = x at taken ⊢
  generalize take? none w u = y at taken ⊢
  cases taken with
  | none => rfl
  | @some x y found =>
    obtain ⟨last, rest⟩ := x
    obtain ⟨last', rest'⟩ := y
    obtain ⟨rfl, h⟩ := found
    have space := h.startsBy_eq (p := isWhiteSpace) (by decide)
    cases rest <;> cases rest' <;> exact space

end Words

end WordList

/-! ## Judgements of the lexicon -/

/-- The words of the lists that are looked for in running text have no breaks. -/
structure Lexicon.Unbroken (x : Lexicon) : Prop where
  modal : ∀ w ∈ x.modalVerbs, TierLint.Unbroken w
  subjective : ∀ w ∈ x.subjectiveWords, TierLint.Unbroken w
  narrative : ∀ w ∈ x.narrativeOpeners, TierLint.Unbroken w

namespace Rebroken

variable {x : Lexicon} (hx : x.Unbroken) (h : Rebroken free false t u)

include hx h

theorem countModal_eq : x.countModal t = x.countModal u :=
  WordList.countFrom_eq hx.modal h none false 0 (by simp)

theorem countSubjective_eq : x.countSubjective t = x.countSubjective u :=
  WordList.countFrom_eq hx.subjective h none false 0 (by simp)

omit hx in
theorem withoutMarker :
    Rebroken free false (Lexicon.withoutMarker t) (Lexicon.withoutMarker u) := by
  cases h with
  | nil => exact .nil
  | char c h =>
    rw [Lexicon.withoutMarker, Lexicon.withoutMarker, h.startsBy_eq (by decide)]
    split
    · exact h.trimStart
    · exact .char c h
  | crlf hf h => simpa [Lexicon.withoutMarker] using .crlf hf h
  | final _ ended => cases ended

omit hx in
theorem firstWord_eq : Lexicon.firstWord t = Lexicon.firstWord u := by
  rw [Lexicon.firstWord, Lexicon.firstWord, (h.trim.withoutMarker).takeWhile_eq]

theorem isDirective_eq : Rule.isDirective x t = Rule.isDirective x u := by
  rw [Rule.isDirective, Rule.isDirective, h.firstWord_eq, Lexicon.hasSubjective,
    Lexicon.hasSubjective, Lexicon.hasModal, Lexicon.hasModal, Lexicon.startsNarrative,
    Lexicon.startsNarrative, WordList.occurs, WordList.occurs, WordList.occurs, WordList.occurs,
    WordList.occursFrom_eq hx.subjective h, WordList.occursFrom_eq hx.modal h,
    WordList.opens_eq hx.narrative h]

omit hx in
theorem isPrefixOf_eq {s : Text} (hs : TierLint.Unbroken s) : s.isPrefixOf t = s.isPrefixOf u := by
  induction s generalizing t u with
  | nil => rw [List.isPrefixOf_nil_left, List.isPrefixOf_nil_left]
  | cons d s ih =>
    cases h with
    | nil => rfl
    | char c h => rw [List.isPrefixOf_cons_cons, List.isPrefixOf_cons_cons, ih h hs.tail]
    | crlf =>
      rw [List.isPrefixOf_cons_cons, List.isPrefixOf_cons_cons, hs.head.1, hs.head.2,
        Bool.false_and, Bool.false_and]
    | final _ ended => cases ended

omit hx in
/-- A text that is neither empty nor broken is held by both or by none. -/
theorem holds_eq {s : Text} (hs : TierLint.Unbroken s) (ne : s ≠ []) :
    Rule.holds s t = Rule.holds s u := by
  induction h with
  | nil => rfl
  | char c h ih => rw [Rule.holds, Rule.holds, ih, (Rebroken.char c h).isPrefixOf_eq hs]
  | @crlf t u hf h ih =>
    obtain ⟨d, s, rfl⟩ := List.exists_cons_of_ne_nil ne
    have none : (d :: s).isPrefixOf ('\n' :: u) = false := by
      rw [List.isPrefixOf_cons_cons, hs.head.1, Bool.false_and]
    rw [Rule.holds, Rule.holds, Rule.holds, ih, (Rebroken.crlf hf h).isPrefixOf_eq hs, none,
      Bool.false_or]
  | final _ ended => cases ended

omit hx in
/-- Vocabulary without breaks is looked up alike: a text with a break has one in lowercase too. -/
theorem lowercase_beq_eq {term : Text} (ht : TierLint.Unbroken term) :
    (lowercase term == lowercase t) = (lowercase term == lowercase u) := by
  by_cases lf : '\n' ∈ t
  · have differs : ∀ {v : Text}, '\n' ∈ v → (lowercase term == lowercase v) = false := by
      intro v hv
      refine beq_eq_false_iff_ne.2 fun eq => ht.1 ?_
      rw [← lf_mem_lowercase, eq]
      exact lf_mem_lowercase.2 hv
    rw [differs lf, differs (h.lf_mem lf)]
  · rw [h.eq_of_lf_not_mem lf]

end Rebroken

end TierLint
