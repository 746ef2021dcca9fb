import TierLint.Lexicon.Basic
import TierLint.Proofs.Text.Rebroken
import TierLint.Proofs.Text.Trim
import TierLint.Proofs.Unicode.WordCase

/-!
# Occurrences of words

A word list occurs in a text if the text can be cut into three parts, the middle one equal to a word
of the list up to case, with a word boundary at each of the two cuts (`WordList.occurs_iff`).
Whether there is a boundary at a cut depends on the two characters there only, so an occurrence is
kept when the text around it changes and these do not: when white space at the edges is trimmed
(`WordList.occurs_trim`), and when lines end in another way (`WordList.Stands.rebroken`).
-/

set_option autoImplicit false

namespace TierLint

open List Unicode

/-- There is a word boundary where the two texts meet. -/
def Text.MeetAtBoundary (front back : Text) : Prop :=
  isWordBoundary front.getLast? back.head? = true

instance (front back : Text) : Decidable (front.MeetAtBoundary back) :=
  inferInstanceAs (Decidable (_ = true))

namespace WordList

/-- The text is a word of the list, up to case. -/
abbrev Lists (words : List Text) (m : Text) : Prop :=
  ∃ w ∈ words, Forall₂ (fun d c => sameFolded d c = true) w m

/-- A word of the list stands as the whole word `m` behind `front` and in front of `back`. -/
structure Stands (words : List Text) (front m back : Text) : Prop where
  listed : Lists words m
  before : front.MeetAtBoundary (m ++ back)
  after : (front ++ m).MeetAtBoundary back

variable {words : List Text} {front back m t u : Text}

theorem take?_eq_some_iff {w rest : Text} {last : Option Char} :
    take? front.getLast? w t = some (last, rest) ↔
      ∃ m, t = m ++ rest ∧ Forall₂ (fun d c => sameFolded d c = true) w m ∧
        last = (front ++ m).getLast? := by
  induction w generalizing front t with
  | nil =>
    simp only [take?, Option.some.injEq, Prod.mk.injEq, forall₂_nil_left_iff]
    constructor
    · rintro ⟨rfl, rfl⟩
      exact ⟨[], rfl, rfl, by rw [append_nil]⟩
    · rintro ⟨m, rfl, rfl, rfl⟩
      exact ⟨by rw [append_nil], rfl⟩
  | cons d w ih =>
    cases t with
    | nil =>
      simp only [take?, reduceCtorEq, false_iff]
      rintro ⟨m, cut, same, -⟩
      rw [(append_eq_nil_iff.1 cut.symm).1] at same
      cases same
    | cons c t =>
      have behind : some c = (front ++ [c]).getLast? := by rw [getLast?_concat]
      rw [take?, behind]
      split
      · rename_i same
        rw [ih]
        constructor
        · rintro ⟨m, rfl, others, rfl⟩
          exact ⟨c :: m, rfl, .cons same others, by rw [append_assoc, singleton_append]⟩
        · rintro ⟨m, cut, found, rfl⟩
          cases found with
          | cons first others =>
            obtain ⟨rfl, rfl⟩ := cons.inj cut
            exact ⟨_, rfl, others, by rw [append_assoc, singleton_append]⟩
      · rename_i other
        simp only [reduceCtorEq, false_iff]
        rintro ⟨m, cut, found, -⟩
        cases found with
        | cons first others =>
          obtain ⟨rfl, rfl⟩ := cons.inj cut
          exact other first

/-- A word is found at the beginning of a text if it stands there. -/
theorem isSome_first?_iff :
    (first? words front.getLast? t).isSome = true ↔
      ∃ m back, t = m ++ back ∧ Stands words front m back := by
  rw [first?, find?_isSome]
  constructor
  · rintro ⟨w, hw, stands⟩
    rw [standsAt, Bool.and_eq_true, Option.any_eq_true] at stands
    obtain ⟨before, ⟨last, rest⟩, taken, after⟩ := stands
    obtain ⟨m, rfl, same, rfl⟩ := take?_eq_some_iff.1 taken
    exact ⟨m, rest, rfl, ⟨w, hw, same⟩, before, after⟩
  · rintro ⟨m, back, rfl, ⟨w, hw, same⟩, before, after⟩
    refine ⟨w, hw, ?_⟩
    rw [standsAt, Bool.and_eq_true, Option.any_eq_true]
    exact ⟨before, _, take?_eq_some_iff.2 ⟨m, rfl, same, rfl⟩, after⟩

/-- What the search finds behind `front`. The induction is on the rest of the text. -/
theorem occursFrom_iff_stands (front : Text) :
    occursFrom words front.getLast? t = true ↔
      ∃ between m back, t = between ++ m ++ back ∧ Stands words (front ++ between) m back := by
  induction t generalizing front with
  | nil =>
    rw [occursFrom, isSome_first?_iff]
    constructor
    · rintro ⟨m, back, cut, stands⟩
      exact ⟨[], m, back, cut, by rwa [append_nil]⟩
    · rintro ⟨between, m, back, cut, stands⟩
      rw [append_assoc, eq_comm, append_eq_nil_iff] at cut
      obtain ⟨rfl, cut⟩ := cut
      exact ⟨m, back, cut.symm, by rwa [append_nil] at stands⟩
  | cons c t ih =>
    have behind : some c = (front ++ [c]).getLast? := by rw [getLast?_concat]
    rw [occursFrom, Bool.or_eq_true, isSome_first?_iff, behind, ih]
    constructor
    · rintro (⟨m, back, cut, stands⟩ | ⟨between, m, back, rfl, stands⟩)
      · exact ⟨[], m, back, cut, by rwa [append_nil]⟩
      · exact ⟨c :: between, m, back, rfl, by rwa [append_assoc] at stands⟩
    · rintro ⟨_ | ⟨d, between⟩, m, back, cut, stands⟩
      · exact .inl ⟨m, back, cut, by rwa [append_nil] at stands⟩
      · obtain ⟨rfl, rfl⟩ := cons.inj cut
        exact .inr ⟨between, m, back, rfl, by rwa [append_assoc]⟩

/-- A word occurs in a text exactly if it stands somewhere in it. -/
theorem occurs_iff :
    occurs words t = true ↔ ∃ front m back, t = front ++ m ++ back ∧ Stands words front m back :=
  occursFrom_iff_stands []

end WordList

/-! ## Texts without words -/

/-- No character of the text belongs to a word. -/
def Text.IsWordless (t : Text) : Prop := ∀ c ∈ t, isWord c = false

namespace Text.IsWordless

variable {t u : Text}

theorem of_isBlank (h : isBlank t = true) : t.IsWordless := fun c hc =>
  isWord_of_isWhiteSpace (all_eq_true.1 h c hc)

theorem any_head? (h : t.IsWordless) : t.head?.any isWord = false :=
  (Option.any_eq_false _ _).2 fun c first => h c (mem_of_head? first)

theorem any_getLast? (h : t.IsWordless) : t.getLast?.any isWord = false :=
  (Option.any_eq_false _ _).2 fun c last => h c (mem_of_getLast? last)

theorem any_head?_append (h : u.IsWordless) :
    (t ++ u).head?.any isWord = t.head?.any isWord := by
  cases t with
  | nil => exact h.any_head?
  | cons c t => rfl

theorem any_getLast?_append (h : t.IsWordless) :
    (t ++ u).getLast?.any isWord = u.getLast?.any isWord := by
  rcases u.eq_nil_or_concat' with rfl | ⟨u, c, rfl⟩
  · rw [append_nil]
    exact h.any_getLast?
  · rw [← append_assoc, getLast?_concat, getLast?_concat]

end Text.IsWordless

/-! ## Boundaries -/

namespace Text.MeetAtBoundary

variable {front back front' back' pre post t : Text}

/-- Other texts meet at a boundary too if the characters there are of words or not just as well. -/
theorem congr (h : front.MeetAtBoundary back)
    (before : front'.getLast?.any isWord = front.getLast?.any isWord)
    (after : back'.head?.any isWord = back.head?.any isWord) : front'.MeetAtBoundary back' := by
  rw [MeetAtBoundary, isWordBoundary] at *
  rwa [before, after]

/-- At a boundary there is a word on one side. -/
theorem any_isWord (h : front.MeetAtBoundary back) :
    front.getLast?.any isWord = true ∨ back.head?.any isWord = true := by
  rw [MeetAtBoundary, isWordBoundary] at h
  by_contra none
  rw [not_or, Bool.not_eq_true, Bool.not_eq_true] at none
  rw [none.1, none.2] at h
  cases h

/-- There is no boundary inside of a text without words, nor in front of it. -/
theorem isPrefix (h : front.MeetAtBoundary back) (wordless : pre.IsWordless)
    (cut : front ++ back = pre ++ t) : pre <+: front := by
  rcases append_eq_append_iff.1 cut with ⟨_ | ⟨c, rest⟩, rfl, rfl⟩ | ⟨rest, rfl, -⟩
  · simp
  · -- the cut would lie inside of `pre`, with a word on neither side
    have before : front.IsWordless := fun d hd => wordless d (mem_append_left _ hd)
    rcases h.any_isWord with word | word
    · cases before.any_getLast?.symm.trans word
    · cases (wordless c (by simp)).symm.trans word
  · exact prefix_append ..

/-- There is no boundary inside of a text without words, nor behind it. -/
theorem isSuffix (h : front.MeetAtBoundary back) (wordless : post.IsWordless)
    (cut : front ++ back = t ++ post) : post <:+ back := by
  rcases append_eq_append_iff.1 cut with ⟨rest, -, rfl⟩ | ⟨rest, rfl, rfl⟩
  · exact suffix_append ..
  · rcases rest.eq_nil_or_concat' with rfl | ⟨rest, c, rfl⟩
    · exact suffix_rfl
    -- the cut would lie inside of `post`, with a word on neither side
    have after : back.IsWordless := fun d hd => wordless d (mem_append_right _ hd)
    rcases h.any_isWord with word | word
    · rw [← append_assoc, getLast?_concat] at word
      cases (wordless c (by simp)).symm.trans word
    · cases after.any_head?.symm.trans word

end Text.MeetAtBoundary

namespace WordList

variable {words : List Text} {front back front' back' m t u pre post : Text}

theorem Stands.congr (h : Stands words front m back)
    (before : ∀ u, (front' ++ u).getLast?.any isWord = (front ++ u).getLast?.any isWord)
    (after : ∀ u, (u ++ back').head?.any isWord = (u ++ back).head?.any isWord) :
    Stands words front' m back' where
  listed := h.listed
  before := h.before.congr (by simpa using before []) (after m)
  after := h.after.congr (before m) (by simpa using after [])

/-- Words stand as well if a text without words is taken away in front. -/
theorem occurs_of_append_left (wordless : pre.IsWordless) (h : occurs words (pre ++ t) = true) :
    occurs words t = true := by
  obtain ⟨front, m, back, cut, stands⟩ := occurs_iff.1 h
  rw [append_assoc] at cut
  obtain ⟨front, rfl⟩ := stands.before.isPrefix wordless cut.symm
  rw [append_assoc, append_cancel_left_eq, ← append_assoc] at cut
  refine occurs_iff.2 ⟨front, m, back, cut, stands.congr (fun u => ?_) fun _ => rfl⟩
  rw [append_assoc, wordless.any_getLast?_append]

/-- Words stand as well if a text without words is taken away behind them. -/
theorem occurs_of_append_right (wordless : post.IsWordless)
    (h : occurs words (t ++ post) = true) : occurs words t = true := by
  obtain ⟨front, m, back, cut, stands⟩ := occurs_iff.1 h
  obtain ⟨back, rfl⟩ := stands.after.isSuffix wordless cut.symm
  rw [← append_assoc, append_cancel_right_eq] at cut
  refine occurs_iff.2 ⟨front, m, back, cut, stands.congr (fun _ => rfl) fun u => ?_⟩
  rw [← append_assoc, wordless.any_head?_append]

/-- White space at the edges of a text is no part of any word in it. -/
theorem occurs_trim (h : occurs words t = true) : occurs words (Text.trim t) = true := by
  obtain ⟨front, back, whole, blankFront, blankBack⟩ := Text.exists_append_trim_append t
  rw [← whole] at h
  exact occurs_of_append_right (.of_isBlank blankBack)
    (occurs_of_append_left (.of_isBlank blankFront) h)

/-- A word that stands in a text still stands if lines end in another way in a part of it, unless a
line ends inside the word and the list lacks what becomes of it. -/
theorem Stands.rebroken {a b : Text} (h : Stands words (front ++ a) m (b ++ back))
    (same : Rebroken true false (a ++ m ++ b) u)
    (spelled : '\n' ∈ m → ∀ m', SpelledAs a m b u m' → Lists words m') :
    occurs words (front ++ u ++ back) = true := by
  obtain ⟨m', found⟩ := same.exists_spelledAs
  have listed : Lists words m' := by
    by_cases lf : '\n' ∈ m
    · exact spelled lf m' found
    · exact found.own.eq_of_lf_not_mem lf ▸ h.listed
  obtain ⟨⟨a', b', rfl, begins, ends⟩, own⟩ := found
  -- on both sides of the word, a word begins or ends as before
  have inFront : Rebroken true false (front ++ a) (front ++ a') := .append (.refl front) begins
  have behind : Rebroken true false (b ++ back) (b' ++ back) := .append ends (.refl back)
  have before : (front ++ a').MeetAtBoundary (m' ++ (b' ++ back)) := by
    refine h.before.congr ?_ ((own.append behind).startsBy_eq (p := isWord) (by decide)).symm
    rw [inFront.getLast?_eq]
  have after : (front ++ a' ++ m').MeetAtBoundary (b' ++ back) := by
    refine h.after.congr ?_ (behind.startsBy_eq (p := isWord) (by decide)).symm
    rw [(inFront.append own).getLast?_eq]
  refine occurs_iff.2 ⟨front ++ a', m', b' ++ back, ?_, listed, before, after⟩
  simp only [append_assoc]

end WordList

end TierLint
