import TierLint.Glob.Match

/-!
# Bytes of texts

In the UTF-8 form of a text, a byte below 128 is an ASCII character and no part of any other
(`utf8EncodeChar_of_mem_lt`). So a text can be cut wherever its bytes have an ASCII character
(`cut_of_bytes`).
-/

set_option autoImplicit false

namespace TierLint.Text

/-- An ASCII character is its own byte. -/
theorem utf8EncodeChar_of_lt {c : Char} (h : c.toNat < 128) :
    String.utf8EncodeChar c = [UInt8.ofNat c.toNat] := by
  have small : c.val.toNat ≤ 0x7f := Nat.le_of_lt_succ h
  rw [String.utf8EncodeChar]
  exact if_pos small

/-- All bytes of any other character are 128 at least. -/
theorem le_of_mem_utf8EncodeChar {c : Char} (h : 128 ≤ c.toNat) {b : UInt8}
    (hb : b ∈ String.utf8EncodeChar c) : 128 ≤ b.toNat := by
  have large : ¬ c.val.toNat ≤ 0x7f := Nat.not_le.2 h
  simp only [String.utf8EncodeChar, if_neg large] at hb
  have lead : ∀ n m : Nat, 128 ≤ m → n + m < 256 → 128 ≤ (UInt8.ofNat (n + m)).toNat := by
    intro n m hm hn
    rw [UInt8.toNat_ofNat', Nat.mod_eq_of_lt hn]
    omega
  split at hb
  · simp only [List.mem_cons, List.not_mem_nil, or_false] at hb
    rcases hb with rfl | rfl <;> exact lead _ _ (by omega) (by omega)
  · split at hb
    · simp only [List.mem_cons, List.not_mem_nil, or_false] at hb
      rcases hb with rfl | rfl | rfl <;> exact lead _ _ (by omega) (by omega)
    · simp only [List.mem_cons, List.not_mem_nil, or_false] at hb
      rcases hb with rfl | rfl | rfl | rfl <;> exact lead _ _ (by omega) (by omega)

theorem utf8EncodeChar_of_mem_lt {c : Char} {b : UInt8} (hb : b ∈ String.utf8EncodeChar c)
    (small : b.toNat < 128) : String.utf8EncodeChar c = [b] ∧ c.toNat = b.toNat := by
  by_cases h : c.toNat < 128
  · rw [utf8EncodeChar_of_lt h] at hb ⊢
    obtain rfl := List.mem_singleton.1 hb
    refine ⟨rfl, ?_⟩
    rw [UInt8.toNat_ofNat', Nat.mod_eq_of_lt (by omega)]
  · have := le_of_mem_utf8EncodeChar (Nat.not_lt.1 h) hb
    omega

theorem utf8Size_of_lt {c : Char} (h : c.toNat < 128) : c.utf8Size = 1 := by
  rw [← String.length_utf8EncodeChar, utf8EncodeChar_of_lt h]
  rfl

theorem byteLength_replicate {c : Char} (h : c.toNat < 128) (n : Nat) :
    byteLength (List.replicate n c) = n := by
  induction n with
  | zero => rfl
  | succ n ih => rw [List.replicate_succ, byteLength_cons, ih, utf8Size_of_lt h, Nat.add_comm]

/-- ASCII characters have one byte each. -/
theorem byteLength_of_ascii {t : Text} (h : ∀ c ∈ t, c.toNat < 128) : byteLength t = t.length := by
  induction t with
  | nil => rfl
  | cons c t ih =>
    obtain ⟨hc, ht⟩ := List.forall_mem_cons.1 h
    rw [byteLength_cons, ih ht, utf8Size_of_lt hc, List.length_cons, Nat.add_comm]

@[simp] theorem bytes_nil : bytes [] = [] := rfl

@[simp] theorem bytes_cons (c : Char) (t : Text) :
    bytes (c :: t) = String.utf8EncodeChar c ++ bytes t := rfl

@[simp] theorem bytes_append (s t : Text) : bytes (s ++ t) = bytes s ++ bytes t :=
  List.flatMap_append

/-- A text can be cut at an ASCII character of its bytes. -/
theorem cut_of_bytes {t : Text} {u v : List UInt8} {b : UInt8} (small : b.toNat < 128)
    (h : t.bytes = u ++ b :: v) :
    ∃ (s : Text) (c : Char) (r : Text),
      t = s ++ c :: r ∧ s.bytes = u ∧ r.bytes = v ∧ c.toNat = b.toNat := by
  induction t generalizing u with
  | nil => simp at h
  | cons c t ih =>
    rw [bytes_cons] at h
    by_cases mem : b ∈ String.utf8EncodeChar c ∧ u = []
    · obtain ⟨mem, rfl⟩ := mem
      obtain ⟨single, code⟩ := utf8EncodeChar_of_mem_lt mem small
      rw [single] at h
      exact ⟨[], c, t, rfl, rfl, (List.cons.inj h).2, code⟩
    · -- the bytes of the first character lie in front of the cut
      have front : ∃ w, u = String.utf8EncodeChar c ++ w := by
        rcases List.append_eq_append_iff.1 h with ⟨w, hw, -⟩ | ⟨w, hc, hw⟩
        · exact ⟨w, hw⟩
        · cases w with
          | nil => exact ⟨[], by simpa using hc.symm⟩
          | cons d w =>
            obtain ⟨rfl, -⟩ := List.cons.inj hw
            have mem' : b ∈ String.utf8EncodeChar c := by simp [hc]
            obtain ⟨single, -⟩ := utf8EncodeChar_of_mem_lt mem' small
            rw [single] at hc
            cases u with
            | nil => exact absurd ⟨mem', rfl⟩ mem
            | cons a u => simp at hc
      obtain ⟨w, rfl⟩ := front
      rw [List.append_assoc, List.append_cancel_left_eq] at h
      obtain ⟨s, d, r, rfl, rfl, rfl, code⟩ := ih h
      exact ⟨c :: s, d, r, rfl, rfl, rfl, code⟩

end TierLint.Text
