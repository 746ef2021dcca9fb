import Mathlib.Data.List.TakeWhile
import Mathlib.Tactic.ByContra
import TierLint.Proofs.Text.Cut

/-!
# White space and indentation

Trimming goes by white space of any kind and indentation by spaces and tabs, so trimming the start of
a text takes away its indentation first (`trimStart_unindented`). The two differ exactly if other
white space follows the indentation (`exists_cons_of_trimStart_ne`).
-/

set_option autoImplicit false

namespace TierLint.Text

open List

theorem isWhiteSpace_of_isIndentChar {c : Char} (h : isIndentChar c = true) :
    Unicode.isWhiteSpace c = true := by
  rw [isIndentChar, Bool.or_eq_true, beq_iff_eq, beq_iff_eq] at h
  rcases h with rfl | rfl <;> decide

theorem isWhiteSpace_of_isDigit {c : Char} (h : c.isDigit = true) :
    Unicode.isWhiteSpace c = false := by
  rw [Char.isDigit, Bool.and_eq_true, decide_eq_true_eq, decide_eq_true_eq] at h
  have lower : 48 ≤ c.toNat := h.1
  have upper : c.toNat ≤ 57 := h.2
  simp only [Unicode.isWhiteSpace, Bool.or_eq_false_iff, Bool.and_eq_false_iff,
    decide_eq_false_iff_not, beq_eq_false_iff_ne]
  omega

/-- A text that begins with no white space begins with no indentation. -/
theorem startsBy_isIndentChar {t : Text} (h : startsBy Unicode.isWhiteSpace t = false) :
    startsBy isIndentChar t = false := by
  cases t with
  | nil => rfl
  | cons c t =>
    refine Bool.eq_false_iff.2 fun indent => ?_
    exact absurd (isWhiteSpace_of_isIndentChar indent) (Bool.eq_false_iff.1 h)

theorem trimStart_append_of_isBlank {s : Text} (h : isBlank s = true) (t : Text) :
    trimStart (s ++ t) = trimStart t :=
  dropWhile_append_of_pos (all_eq_true.1 h)

theorem head?_trimStart (t : Text) :
    (trimStart t).head? = t.find? (!Unicode.isWhiteSpace ·) := by
  rw [find?_eq_head?_dropWhile_not, trimStart]
  simp only [Bool.not_not]

/-- Trimming the start goes on behind the indentation. -/
theorem trimStart_unindented (t : Text) : trimStart (unindented t) = trimStart t := by
  have blank : isBlank (indentation t) = true :=
    all_eq_true.2 fun c hc => isWhiteSpace_of_isIndentChar (mem_takeWhile_imp hc)
  rw [← trimStart_append_of_isBlank blank, indentation_append_unindented]

/-- Nothing more is trimmed in front of a character that is no white space. -/
theorem trimStart_of_unindented {t rest : Text} {c : Char} (h : unindented t = c :: rest)
    (hc : Unicode.isWhiteSpace c = false) : trimStart t = c :: rest := by
  rw [← trimStart_unindented, h, trimStart, dropWhile_cons_of_neg (by simp [hc])]

/-- Where trimming takes away more than the indentation, other white space follows it. -/
theorem exists_cons_of_trimStart_ne {t : Text} (h : trimStart t ≠ unindented t) :
    ∃ c rest, unindented t = c :: rest ∧ Unicode.isWhiteSpace c = true ∧
      isIndentChar c = false := by
  cases eq : unindented t with
  | nil =>
    rw [← trimStart_unindented, eq] at h
    exact absurd rfl h
  | cons c rest =>
    refine ⟨c, rest, rfl, by_contra fun no => h ?_, ?_⟩
    · exact (trimStart_of_unindented eq (Bool.eq_false_iff.2 no)).trans eq.symm
    · have first := head?_dropWhile_not isIndentChar t
      rw [← unindented, eq] at first
      exact first

/-- Where all white space is indentation, trimming takes the indentation away. -/
theorem trimStart_eq_unindented {t : Text}
    (h : ∀ c ∈ t, Unicode.isWhiteSpace c = true → isIndentChar c = true) :
    trimStart t = unindented t := by
  by_contra odd
  obtain ⟨c, rest, eq, ws, other⟩ := exists_cons_of_trimStart_ne odd
  have mem : c ∈ unindented t := eq ▸ mem_cons_self
  rw [h c ((dropWhile_suffix _).subset mem) ws] at other
  cases other

/-- The end of a text is trimmed up to a character that is no white space. -/
theorem exists_trimEnd_append (t : Text) :
    ∃ back, trimEnd t ++ back = t ∧ isBlank back = true := by
  rw [trimEnd]
  induction t with
  | nil => exact ⟨[], rfl, rfl⟩
  | cons c t ih =>
    obtain ⟨back, whole, blank⟩ := ih
    rw [dropEndWhile_cons]
    split
    · rename_i ends
      obtain ⟨none, ws⟩ := Bool.and_eq_true_iff.1 ends
      rw [isEmpty_iff.1 none, nil_append] at whole
      rw [isBlank, whole] at blank
      exact ⟨c :: t, rfl, by rw [isBlank, all_cons, ws, blank, Bool.true_and]⟩
    · exact ⟨back, by rw [cons_append, whole], blank⟩

/-- A text is its trimmed text between white space. -/
theorem exists_append_trim_append (t : Text) :
    ∃ front back, front ++ (trim t ++ back) = t ∧ isBlank front = true ∧ isBlank back = true := by
  obtain ⟨back, whole, blank⟩ := exists_trimEnd_append (trimStart t)
  refine ⟨t.takeWhile Unicode.isWhiteSpace, back, ?_, all_takeWhile, blank⟩
  rw [trim, whole, trimStart, takeWhile_append_dropWhile]

/-- Trimming takes away white space only. -/
theorem count_trim {d : Char} (hd : Unicode.isWhiteSpace d = false) (t : Text) :
    (trim t).count d = t.count d := by
  have start : (trimStart t).count d = t.count d := by
    have none : (t.takeWhile Unicode.isWhiteSpace).count d = 0 := by
      refine count_eq_zero.2 fun mem => ?_
      rw [mem_takeWhile_imp mem] at hd
      cases hd
    calc (trimStart t).count d
        = (t.takeWhile Unicode.isWhiteSpace).count d + (trimStart t).count d := by
          rw [none, Nat.zero_add]
      _ = t.count d := by rw [← count_append, trimStart, takeWhile_append_dropWhile]
  rw [trim, ← start, trimEnd]
  induction trimStart t with
  | nil => rfl
  | cons c t ih =>
    rw [dropEndWhile_cons]
    split
    · rename_i ends
      obtain ⟨none, ws⟩ := Bool.and_eq_true_iff.1 ends
      have other : c ≠ d := by
        rintro rfl
        rw [ws] at hd
        cases hd
      rw [isEmpty_iff.1 none] at ih
      rw [count_cons_of_ne other, ← ih]
    · rw [count_cons, count_cons, ih]

end TierLint.Text
