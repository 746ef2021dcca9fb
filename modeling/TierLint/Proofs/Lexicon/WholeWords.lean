import Mathlib.Data.List.TakeWhile
import TierLint.Lexicon.Basic
import TierLint.Proofs.Unicode.WordCase

/-!
# Counting words is counting tokens

A text falls into words at the characters that are no word characters (`Text.words`). A word list of
plain words is searched for from left to right, between word boundaries and without overlap; the
number of occurrences is the number of words of the text that are listed
(`WordList.countFrom_eq_countP`). What makes it so is that a plain word can stand at one place only:
at the begin of a word of the text, and then as the whole of it (`WordList.standsAt_plain`).
-/

set_option autoImplicit false

namespace TierLint

open Unicode

/-! ## The words of a text -/

namespace Text

/-- The words of a text: the longest runs of word characters. -/
def words (t : Text) : List Text := (t.splitOnP (!isWord ·)).filter (!·.isEmpty)

variable {a b t : Text} {c : Char}

@[simp] theorem words_nil : words [] = [] := by rw [words, List.splitOnP_nil]; rfl

/-- No word reaches across a character that is not part of a word. -/
theorem words_append_cons (h : isWord c = false) : words (a ++ c :: b) = words a ++ words b := by
  rw [words, words, words, List.splitOnP_append_cons a b (by rw [h]; rfl), List.filter_append]

theorem words_cons_of_not_isWord (h : isWord c = false) : words (c :: t) = words t :=
  words_append_cons (a := []) h

theorem words_eq_singleton (ne : t ≠ []) (h : ∀ c ∈ t, isWord c = true) : words t = [t] := by
  have whole : t.splitOnP (!isWord ·) = [t] := by
    apply List.splitOnP_eq_singleton
    intro c mem
    rw [h c mem]
    rfl
  rw [words, whole, List.filter_cons_of_pos (by simpa using ne), List.filter_nil]

/-- A word character begins the word of all word characters up to the next other character. -/
theorem words_cons_of_isWord (h : isWord c = true) :
    words (c :: t) = (c :: t.takeWhile isWord) :: words (t.dropWhile isWord) := by
  have run : words (c :: t.takeWhile isWord) = [c :: t.takeWhile isWord] := by
    apply words_eq_singleton (List.cons_ne_nil _ _)
    intro d mem
    rcases List.mem_cons.1 mem with rfl | mem
    · exact h
    · exact List.mem_takeWhile_imp mem
  have cut : c :: t = (c :: t.takeWhile isWord) ++ t.dropWhile isWord := by
    rw [List.cons_append, List.takeWhile_append_dropWhile]
  cases rest : t.dropWhile isWord with
  | nil => rw [cut, rest, List.append_nil, run, words_nil]
  | cons d u =>
    -- the word ends in front of a character that belongs to none
    have stop : isWord d = false := by
      have ne : t.dropWhile isWord ≠ [] := by simp [rest]
      simpa [rest] using List.head_dropWhile_not isWord ne
    rw [cut, rest, words_append_cons stop, words_cons_of_not_isWord stop, run]
    rfl

end Text

/-! ## Occurrences -/

namespace WordList

/-- The list holds plain words only: none is empty, and all consist of word characters. -/
def Plain (words : List Text) : Prop := ∀ w ∈ words, w ≠ [] ∧ ∀ c ∈ w, isWord c = true

instance (words : List Text) : Decidable (Plain words) :=
  decidable_of_iff ((words.all fun w => !w.isEmpty && w.all isWord) = true) (by simp [Plain])

/-- The list holds the word, up to case. -/
def lists (words : List Text) (run : Text) : Bool :=
  words.any fun w => w.map fold == run.map fold

variable {words : List Text} {before : Option Char} {t w : Text} {c d : Char} {taken : Nat}

/-- A word that is taken up to a boundary is the run of word characters at the begin of the text. -/
theorem any_take?_eq (inside : before.any isWord = true ∨ w ≠ [])
    (plain : ∀ c ∈ w, isWord c = true) :
    ((take? before w t).any fun (last, rest) => isWordBoundary last rest.head?) =
      (w.map fold == (t.takeWhile isWord).map fold) := by
  induction w generalizing before t with
  | nil =>
    have behind : before.any isWord = true := inside.resolve_right fun ne => ne rfl
    rw [take?, Option.any_some]
    cases t with
    | nil => simp [isWordBoundary, behind]
    | cons c t => cases h : isWord c <;> simp [isWordBoundary, behind, h]
  | cons d w ih =>
    have letter : isWord d = true := plain d List.mem_cons_self
    cases t with
    | nil => rfl
    | cons c t =>
      rw [take?]
      by_cases same : sameFolded d c = true
      · have next : isWord c = true := by rw [← isWord_eq_of_sameFolded same, letter]
        have behind : (some c).any isWord = true := next
        have equal : (fold d == fold c) = true := same
        rw [if_pos same, ih (.inl behind) fun c mem => plain c (List.mem_cons_of_mem d mem),
          List.takeWhile_cons_of_pos next, List.map_cons, List.map_cons, List.cons_beq_cons, equal,
          Bool.true_and]
      · have differ : (fold d == fold c) = false := Bool.eq_false_iff.2 same
        rw [if_neg same, List.takeWhile_cons]
        split
        · rw [List.map_cons, List.map_cons, List.cons_beq_cons, differ, Bool.false_and]
          rfl
        · rfl

/-- A plain word stands at the begin of a word of the text, and as the whole of it. -/
theorem standsAt_plain (ne : w ≠ []) (plain : ∀ c ∈ w, isWord c = true) :
    standsAt before t w =
      (!before.any isWord && w.map fold == (t.takeWhile isWord).map fold) := by
  rw [standsAt, any_take?_eq (.inr ne) plain, isWordBoundary]
  obtain ⟨d, w, rfl⟩ := List.exists_cons_of_ne_nil ne
  cases t with
  | nil => simp
  | cons c t => cases h : isWord c <;> simp [h]

section Plain

variable (plain : Plain words)

include plain

/-- No word stands at a place that a word of the text does not begin at. -/
theorem first?_eq_none (h : before.any isWord = true ∨ t.takeWhile isWord = []) :
    first? words before t = none := by
  apply List.find?_eq_none.2
  intro w mem
  obtain ⟨ne, letters⟩ := plain w mem
  rw [standsAt_plain ne letters]
  rcases h with behind | none
  · simp [behind]
  · simp [none, ne]

/-- At the begin of a word of the text a listed word stands, if one does, as the whole of it. -/
theorem first?_at_begin (outside : before.any isWord = false) (letter : isWord c = true) :
    match first? words before (c :: t) with
    | none => lists words (c :: t.takeWhile isWord) = false
    | some [] => False
    | some (_ :: w) =>
      lists words (c :: t.takeWhile isWord) = true ∧ w.length = (t.takeWhile isWord).length := by
  have stands : ∀ w ∈ words, standsAt before (c :: t) w =
      (w.map fold == (c :: t.takeWhile isWord).map fold) := by
    intro w mem
    obtain ⟨ne, letters⟩ := plain w mem
    rw [standsAt_plain ne letters, outside, List.takeWhile_cons_of_pos letter]
    rfl
  cases found : first? words before (c :: t) with
  | none =>
    apply List.any_eq_false.2
    intro w mem
    rw [← stands w mem]
    exact List.find?_eq_none.1 found w mem
  | some w =>
    have mem := List.mem_of_find?_eq_some found
    have same := (stands w mem).symm.trans (List.find?_some found)
    cases w with
    | nil => cases same
    | cons d w =>
      refine ⟨List.any_eq_true.2 ⟨d :: w, mem, same⟩, ?_⟩
      have lengths := congrArg List.length (eq_of_beq same)
      simpa using lengths

/-- At the begin of a word of the text, the word counts if it is listed, and the search goes on inside
of it. -/
theorem countFrom_at_begin (outside : before.any isWord = false) (letter : isWord c = true)
    (matched : Bool) {rest : Nat}
    (onward : ∀ matched taken, taken ≤ (t.takeWhile isWord).length →
      countFrom words (some c) matched taken t = rest) :
    countFrom words before matched 0 (c :: t) =
      rest + if lists words (c :: t.takeWhile isWord) then 1 else 0 := by
  have begins := first?_at_begin plain outside letter (t := t)
  rw [countFrom]
  cases found : first? words before (c :: t) with
  | none =>
    rw [found] at begins
    rw [begins]
    exact onward false 0 (Nat.zero_le _)
  | some w =>
    rw [found] at begins
    cases w with
    | nil => exact begins.elim
    | cons d w =>
      rw [begins.1]
      exact congrArg (· + 1) (onward w.isEmpty w.length begins.2.le)

/-- **Counting words is counting tokens.** The induction is on the text; inside of a word of the text,
whether it was taken or not, the search goes on behind it. -/
theorem countFrom_eq_countP (matched : Bool) (inside : taken ≤ (t.takeWhile isWord).length)
    (behind : taken = 0 ∨ before.any isWord = true) :
    countFrom words before matched taken t =
      (Text.words (if before.any isWord then t.dropWhile isWord else t)).countP (lists words) := by
  induction t generalizing before matched taken with
  | nil =>
    obtain rfl : taken = 0 := Nat.le_zero.1 inside
    rw [countFrom, first?_eq_none plain (.inr rfl)]
    simp
  | cons c t ih =>
    cases letter : isWord c with
    | false =>
      -- no word of the text goes on here, so nothing of it has been taken
      have none : (c :: t).takeWhile isWord = [] := List.takeWhile_cons_of_neg (by simp [letter])
      obtain rfl : taken = 0 := by simpa [none] using inside
      have rest : (c :: t).dropWhile isWord = c :: t :=
        List.dropWhile_cons_of_neg (by simp [letter])
      have next : (some c).any isWord = false := letter
      rw [countFrom, first?_eq_none plain (.inr none), rest, ite_self,
        Text.words_cons_of_not_isWord letter, ih false (Nat.zero_le _) (.inl rfl), next]
      rfl
    | true =>
      have next : (some c).any isWord = true := letter
      have onward : ∀ matched taken, taken ≤ (t.takeWhile isWord).length →
          countFrom words (some c) matched taken t =
            (Text.words (t.dropWhile isWord)).countP (lists words) := by
        intro matched taken inside
        rw [ih matched inside (.inr next), if_pos next]
      rw [List.takeWhile_cons_of_pos letter, List.length_cons] at inside
      cases within : before.any isWord with
      | true =>
        rw [if_pos rfl, List.dropWhile_cons_of_pos letter]
        cases taken with
        | zero =>
          -- a word of the text that was not taken: no other one begins inside of it
          rw [countFrom, first?_eq_none plain (.inl within)]
          exact onward false 0 (Nat.zero_le _)
        | succ taken =>
          rw [countFrom]
          exact onward _ taken (Nat.le_of_succ_le_succ inside)
      | false =>
        obtain rfl : taken = 0 := behind.resolve_right fun h => by simp [within] at h
        rw [if_neg Bool.false_ne_true, Text.words_cons_of_isWord letter, List.countP_cons]
        exact countFrom_at_begin plain within letter matched onward

end Plain

/-- A word occurs exactly if the number of occurrences is positive. -/
theorem occursFrom_iff (words : List Text) (before : Option Char) (t : Text) :
    occursFrom words before t = true ↔ 0 < countFrom words before false 0 t := by
  induction t generalizing before with
  | nil => cases found : first? words before [] <;> simp [occursFrom, countFrom, found]
  | cons c t ih =>
    rw [occursFrom, countFrom]
    cases found : first? words before (c :: t) with
    | none => simpa using ih (some c)
    | some w => cases w <;> simp

/-! ## Counts -/

/-- `count` tells the number of words of a text that are listed and `occurs` whether there is one. -/
structure CountsWords (words : List Text) (count : Text → Nat) (occurs : Text → Bool) : Prop where
  count_eq : ∀ t, count t = (Text.words t).countP (lists words)
  occurs_iff : ∀ t, occurs t = true ↔ 0 < count t
  /-- White space cuts a text into two that are counted on their own. -/
  count_append : ∀ a b c, isWhiteSpace c = true → count (a ++ c :: b) = count a + count b

theorem count_eq_countP (plain : Plain words) (t : Text) :
    count words t = (Text.words t).countP (lists words) :=
  countFrom_eq_countP plain false (Nat.zero_le _) (.inl rfl)

/-- Words of a list of plain words are counted as tokens. -/
theorem countsWords_of_plain (plain : Plain words) :
    CountsWords words (count words) (occurs words) where
  count_eq := count_eq_countP plain
  occurs_iff := occursFrom_iff words none
  count_append a b c space := by
    rw [count_eq_countP plain, Text.words_append_cons (isWord_of_isWhiteSpace space),
      List.countP_append, count_eq_countP plain, count_eq_countP plain]

end WordList

namespace Lexicon

open WordList

/-- Modal verbs and subjective words are counted as tokens if they are plain words. -/
theorem countsWords (v : Vocabulary) :
    (Plain v.modalVerbs →
        CountsWords v.modalVerbs (ofVocabulary v).countModal (ofVocabulary v).hasModal) ∧
      (Plain v.subjectiveWords →
        CountsWords v.subjectiveWords (ofVocabulary v).countSubjective
          (ofVocabulary v).hasSubjective) :=
  ⟨countsWords_of_plain, countsWords_of_plain⟩

/-- Words that begin with each other, one listed twice, in a text without regard to case. -/
theorem countsWords_overlapping :
    let v := { Vocabulary.standard with
      modalVerbs := ["may", "maybe", "MAY"].map String.toList }
    (Plain v.modalVerbs ∧ Plain v.subjectiveWords) ∧
      (ofVocabulary v).countModal "Maybe may, mayo may_be maY".toList = 3 ∧
      (ofVocabulary v).hasModal "Maybe may, mayo may_be maY".toList = true ∧
      (ofVocabulary v).countSubjective ("often".toList ++ '\u3000' :: "Oſten usually".toList) =
        (ofVocabulary v).countSubjective "often".toList +
          (ofVocabulary v).countSubjective "Oſten usually".toList := by
  intro v
  have modal : Plain v.modalVerbs := by decide +kernel
  have subjective : Plain v.subjectiveWords := by decide +kernel
  have counts := (countsWords v).1 modal
  have three : (ofVocabulary v).countModal "Maybe may, mayo may_be maY".toList = 3 := by
    rw [counts.count_eq]
    decide +kernel
  exact ⟨⟨modal, subjective⟩, three, (counts.occurs_iff _).2 (by rw [three]; decide),
    ((countsWords v).2 subjective).count_append _ _ _ (by decide)⟩

end Lexicon

end TierLint
