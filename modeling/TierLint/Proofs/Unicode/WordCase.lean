import Mathlib.Data.List.Chain
import Mathlib.Data.List.TakeWhile
import TierLint.Unicode.Folding
import TierLint.Unicode.Lowercase
import TierLint.Unicode.WhiteSpace
import TierLint.Unicode.Word

/-!
# Words and case

Only letters have a case: what case folding moves, and where it moves it, is cased, so alphabetic,
and no newer than the words. So characters that match without regard to case are word characters
together (`isWord_eq_of_sameFolded`). White space is none (`isWord_of_isWhiteSpace`).

The tables are compared range by range. A search in a table ends early, which loses nothing if the
table is in order (`covers_iff`).
-/

set_option autoImplicit false
set_option maxRecDepth 8000

namespace TierLint.Unicode

variable {rs ss : List CodeRange} {shifts : List CodeShift} {a b m n : Nat}

/-! ## Ranges -/

/-- The ranges are in increasing order of their first members. -/
def Ordered (rs : List CodeRange) : Prop := (rs.map (·.first)).IsChain (· ≤ ·)

instance (rs : List CodeRange) : Decidable (Ordered rs) :=
  inferInstanceAs (Decidable (List.IsChain (· ≤ ·) (rs.map (·.first))))

/-- A table in order covers just the members of its ranges. -/
theorem covers_iff (ordered : Ordered rs) :
    covers rs n = true ↔ ∃ r ∈ rs, r.first ≤ n ∧ n ≤ r.last := by
  induction rs with
  | nil => simp [covers]
  | cons r rs ih =>
    have behind : ∀ s ∈ rs, r.first ≤ s.first := by
      have sorted := List.isChain_iff_pairwise.1 ordered
      simpa using (List.pairwise_cons.1 sorted).1
    have ordered : Ordered rs := List.IsChain.tail ordered
    rw [covers]
    split
    · rename_i before
      refine iff_of_false Bool.false_ne_true ?_
      rintro ⟨s, mem, low, -⟩
      rcases List.mem_cons.1 mem with rfl | mem
      · omega
      · have := behind s mem
        omega
    · rename_i inside
      rw [Bool.or_eq_true, decide_eq_true_eq, ih ordered, List.exists_mem_cons_iff]
      exact or_congr_left (by omega)

/-- One of the ranges holds all code points from `a` to `b`. -/
def spans : List CodeRange → Nat → Nat → Bool
  | [], _, _ => false
  | r :: rs, a, b => if a < r.first then false else b ≤ r.last || spans rs a b

theorem covers_of_spans (h : spans rs a b = true) (low : a ≤ n) (high : n ≤ b) :
    covers rs n = true := by
  induction rs with
  | nil => cases h
  | cons r rs ih =>
    rw [spans] at h
    split at h
    · cases h
    · rw [covers, if_neg (by omega), Bool.or_eq_true, decide_eq_true_eq]
      rw [Bool.or_eq_true, decide_eq_true_eq] at h
      exact h.imp (by omega) ih

/-- None of the ranges holds a code point from `a` to `b`. -/
def avoids : List CodeRange → Nat → Nat → Bool
  | [], _, _ => true
  | r :: rs, a, b => if b < r.first then true else r.last < a && avoids rs a b

theorem not_covers_of_avoids (h : avoids rs a b = true) (low : a ≤ n) (high : n ≤ b) :
    covers rs n = false := by
  induction rs with
  | nil => rfl
  | cons r rs ih =>
    rw [avoids] at h
    rw [covers]
    split at h
    · rw [if_pos (by omega)]
    · rw [Bool.and_eq_true, decide_eq_true_eq] at h
      rw [ih h.2, decide_eq_false (by omega), Bool.or_false, ite_self]

/-- Each of the ranges `rs` lies in one of `ss`, and in the same order. -/
def within : List CodeRange → List CodeRange → Bool
  | rs, [] => rs.isEmpty
  | rs, s :: ss => within (rs.dropWhile fun r => s.first ≤ r.first && r.last ≤ s.last) ss

theorem exists_of_within (h : within rs ss = true) {r : CodeRange} (mem : r ∈ rs) :
    ∃ s ∈ ss, s.first ≤ r.first ∧ r.last ≤ s.last := by
  induction ss generalizing rs with
  | nil => simp [List.isEmpty_iff.1 h] at mem
  | cons s ss ih =>
    rw [within] at h
    rw [← List.takeWhile_append_dropWhile (p := fun r => s.first ≤ r.first && r.last ≤ s.last)
      (l := rs), List.mem_append] at mem
    rcases mem with mem | mem
    · have inside := List.mem_takeWhile_imp mem
      exact ⟨s, List.mem_cons_self, by simpa using inside⟩
    · obtain ⟨s, mem, inside⟩ := ih h mem
      exact ⟨s, List.mem_cons_of_mem _ mem, inside⟩

/-! ## Shifts -/

/-- `p` holds of the code points that the shift leads from and of those that it leads to: of all from
the first to the last, or else of each. -/
def CodeShift.joins (p : Nat → Nat → Bool) (s : CodeShift) : Bool :=
  p s.first s.last && p s.target (s.target + (s.last - s.first))
    || (List.range (s.last - s.first + 1)).all fun k =>
      k % s.step != 0 || p (s.first + k) (s.first + k) && p (s.target + k) (s.target + k)

theorem CodeShift.exists_of_joins {p : Nat → Nat → Bool} {s : CodeShift}
    (h : s.joins p = true) (image : s.image? n = some m) :
    (∃ a b, p a b = true ∧ a ≤ n ∧ n ≤ b) ∧ ∃ a b, p a b = true ∧ a ≤ m ∧ m ≤ b := by
  obtain ⟨⟨⟨low, high⟩, step⟩, rfl⟩ :
      ((s.first ≤ n ∧ n ≤ s.last) ∧ (n - s.first) % s.step = 0) ∧ s.target + (n - s.first) = m := by
    simpa [image?] using image
  rcases Bool.or_eq_true_iff.1 h with whole | each
  · rw [Bool.and_eq_true] at whole
    exact ⟨⟨_, _, whole.1, low, high⟩, ⟨_, _, whole.2, by omega, by omega⟩⟩
  · have member := List.all_eq_true.1 each (n - s.first) (List.mem_range.2 (by omega))
    rw [step, bne_self_eq_false, Bool.false_or, Bool.and_eq_true] at member
    exact ⟨⟨_, _, member.1, by omega, by omega⟩, ⟨_, _, member.2, le_rfl, le_rfl⟩⟩

theorem shift_eq_or_exists (shifts : List CodeShift) (n : Nat) :
    shift shifts n = n ∨ ∃ s ∈ shifts, s.image? n = some (shift shifts n) := by
  induction shifts with
  | nil => exact .inl rfl
  | cons s shifts ih =>
    rw [shift]
    split
    · exact .inl rfl
    · cases image : s.image? n with
      | some m => exact .inr ⟨s, List.mem_cons_self, image⟩
      | none =>
        refine ih.imp id ?_
        rintro ⟨s, mem, image⟩
        exact ⟨s, List.mem_cons_of_mem _ mem, image⟩

/-! ## Letters with a case -/

/-- All code points from `a` to `b` are cased, and not new. -/
def areCased (a b : Nat) : Bool := spans casedRanges a b && avoids newAlphabeticRanges a b

/-- Case folding leads from cased characters to cased characters. -/
theorem foldShifts_areCased : (foldShifts.all (CodeShift.joins areCased)) = true := by
  decide +kernel

theorem ordered_casedRanges : Ordered casedRanges := by decide +kernel

/-- Cased characters are alphabetic. -/
theorem isAlphabetic_of_isCased {c : Char} (h : isCased c = true) : isAlphabetic c = true := by
  have tables : within casedRanges alphabeticRanges = true := by decide +kernel
  have alphabetic : Ordered alphabeticRanges := by decide +kernel
  obtain ⟨r, mem, low, high⟩ := (covers_iff ordered_casedRanges).1 h
  obtain ⟨s, mem, first, last⟩ := exists_of_within tables mem
  exact (covers_iff alphabetic).2 ⟨s, mem, first.trans low, high.trans last⟩

theorem isValidChar_of_covers_casedRanges (h : covers casedRanges n = true) : n.isValidChar := by
  have valid : (casedRanges.all fun r =>
    r.last < 0xD800 || 0xDFFF < r.first && r.last < 0x110000) = true := by decide +kernel
  obtain ⟨r, mem, low, high⟩ := (covers_iff ordered_casedRanges).1 h
  have := List.all_eq_true.1 valid r mem
  simp only [Bool.or_eq_true, Bool.and_eq_true, decide_eq_true_eq] at this
  unfold Nat.isValidChar
  omega

theorem isWord_of_areCased {c : Char} (h : areCased a b = true) (low : a ≤ c.toNat)
    (high : c.toNat ≤ b) : isWord c = true := by
  rw [areCased, Bool.and_eq_true] at h
  have letter := isAlphabetic_of_isCased (covers_of_spans h.1 low high)
  rw [isWord, letter, not_covers_of_avoids h.2 low high]
  rfl

/-- Case folding keeps word characters and all others apart. -/
theorem isWord_fold (c : Char) : isWord (fold c) = isWord c := by
  rw [fold]
  rcases shift_eq_or_exists foldShifts c.toNat with same | ⟨s, mem, image⟩
  · rw [same, Char.ofNat_toNat]
  · have joined := List.all_eq_true.1 foldShifts_areCased s mem
    obtain ⟨⟨a, b, source, low, high⟩, ⟨a', b', target, low', high'⟩⟩ :=
      s.exists_of_joins joined image
    have valid : (shift foldShifts c.toNat).isValidChar := by
      rw [areCased, Bool.and_eq_true] at target
      exact isValidChar_of_covers_casedRanges (covers_of_spans target.1 low' high')
    have code : (Char.ofNat (shift foldShifts c.toNat)).toNat = shift foldShifts c.toNat := by
      rw [Char.ofNat, dif_pos valid]
      rfl
    rw [isWord_of_areCased source low high, isWord_of_areCased target (code.symm ▸ low')
      (code.symm ▸ high')]

/-- Of characters that match without regard to case both or neither are word characters. -/
theorem isWord_eq_of_sameFolded {c d : Char} (h : sameFolded c d = true) : isWord c = isWord d := by
  rw [← isWord_fold c, eq_of_beq h, isWord_fold]

/-! ## White space -/

/-- White space is no word character. -/
theorem isWord_of_isWhiteSpace {c : Char} (h : isWhiteSpace c = true) : isWord c = false := by
  have table : (([0x85, 0xA0, 0x1680, 0x2028, 0x2029, 0x202F, 0x205F, 0x3000] ++
      List.range' 0x09 5 ++ [0x20] ++ List.range' 0x2000 11).all fun n =>
        !isWord (Char.ofNat n)) = true := by
    decide +kernel
  have mem := List.all_eq_true.1 table c.toNat ?_
  · rwa [Char.ofNat_toNat, Bool.not_eq_true'] at mem
  · simp only [isWhiteSpace, Bool.or_eq_true, Bool.and_eq_true, decide_eq_true_eq, beq_iff_eq] at h
    simp only [List.mem_append, List.mem_cons, List.mem_range'_1, List.not_mem_nil, or_false]
    omega

end TierLint.Unicode
