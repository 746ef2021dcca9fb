import TierLint.Unicode.Folding
import TierLint.Unicode.Lowercase

/-!
# Case mappings and control characters

The tables for case folding and lowercase neither move a character below the capital letters nor
move another one there. So a control character matches only itself without regard to case
(`eq_of_sameFolded`), and a text has line feeds in lowercase exactly if it has any
(`lf_mem_lowercase`).
-/

set_option autoImplicit false
set_option maxRecDepth 8000

namespace TierLint.Unicode

/-- All shifts lead from and to code points above `n`. -/
def Above (n : Nat) (shifts : List CodeShift) : Bool :=
  shifts.all fun s => n < s.first && n < s.target

theorem shift_eq_iff {n m : Nat} {shifts : List CodeShift} (h : Above n shifts = true) :
    shift shifts m = n ↔ m = n := by
  induction shifts with
  | nil => rfl
  | cons s shifts ih =>
    obtain ⟨⟨hfirst, htarget⟩, hrest⟩ : (n < s.first ∧ n < s.target) ∧ Above n shifts = true := by
      simpa [Above] using h
    rw [shift]
    split
    · rfl
    · cases image : s.image? m with
      | none => exact ih hrest
      | some k =>
        obtain ⟨-, rfl⟩ : _ ∧ s.target + (m - s.first) = k := by
          simpa [CodeShift.image?] using image
        simp only [Option.getD_some]
        omega

theorem ofNat_shift_eq_iff {c d : Char} {shifts : List CodeShift} (hc : 0 < c.toNat)
    (h : Above c.toNat shifts = true) : Char.ofNat (shift shifts d.toNat) = c ↔ d = c := by
  rw [← Char.toNat_inj, ← Char.toNat_inj, Char.ofNat]
  by_cases valid : (shift shifts d.toNat).isValidChar
  · rw [dif_pos valid]
    exact shift_eq_iff h
  · rw [dif_neg valid]
    refine ⟨fun eq => absurd eq (Nat.ne_of_lt hc), fun same => absurd ?_ valid⟩
    rw [(shift_eq_iff h).2 same]
    exact c.valid

theorem above_foldShifts {n : Nat} (h : n < 0x41) : Above n foldShifts = true := by
  have table : Above 0x40 foldShifts = true := by decide
  refine List.all_eq_true.2 fun s hs => ?_
  have := List.all_eq_true.1 table s hs
  simp only [Bool.and_eq_true, decide_eq_true_eq] at this ⊢
  omega

theorem above_lowercaseShifts {n : Nat} (h : n < 0x41) : Above n lowercaseShifts = true := by
  have table : Above 0x40 lowercaseShifts = true := by decide
  refine List.all_eq_true.2 fun s hs => ?_
  have := List.all_eq_true.1 table s hs
  simp only [Bool.and_eq_true, decide_eq_true_eq] at this ⊢
  omega

/-- A character below the capital letters matches only itself. -/
theorem eq_of_sameFolded {c d : Char} (hpos : 0 < c.toNat) (hc : c.toNat < 0x41)
    (h : sameFolded d c = true) : d = c := by
  have table := above_foldShifts hc
  have same : fold c = c := (ofNat_shift_eq_iff hpos table).2 rfl
  rw [sameFolded, beq_iff_eq, same] at h
  exact (ofNat_shift_eq_iff hpos table).1 h

theorem lf_mem_lowercaseOf {c : Char} : '\n' ∈ lowercaseOf c ↔ c = '\n' := by
  rw [lowercaseOf]
  split
  · rename_i dotted
    obtain rfl : c = '\u0130' := by simpa using dotted
    decide
  · rw [List.mem_singleton, eq_comm,
      ofNat_shift_eq_iff (by decide) (above_lowercaseShifts (by decide))]

/-- A text has a line feed in lowercase exactly if it has one. -/
theorem lf_mem_lowercase {t : Text} : '\n' ∈ lowercase t ↔ '\n' ∈ t := by
  have behind : ∀ before : Text, '\n' ∈ lowercaseFrom before t ↔ '\n' ∈ t := by
    induction t with
    | nil => exact fun _ => Iff.rfl
    | cons c t ih =>
      intro before
      rw [lowercaseFrom, List.mem_append, List.mem_cons, ih, eq_comm (a := '\n')]
      refine or_congr_left ?_
      split
      · rename_i sigma
        simp only [Bool.and_eq_true, beq_iff_eq] at sigma
        obtain ⟨⟨rfl, -⟩, -⟩ := sigma
        decide
      · exact lf_mem_lowercaseOf
  exact behind []

end TierLint.Unicode
