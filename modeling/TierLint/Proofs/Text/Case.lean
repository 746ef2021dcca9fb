import TierLint.Proofs.Text.Bytes
import TierLint.Proofs.Text.Cut

/-!
# Case of ASCII letters

`foldCase` writes the ASCII letters of a text in lowercase, so two texts differ only in the case of
ASCII letters exactly if they are folded to the same text. Only letters take part in it
(`toLower_eq_iff`): the folded text has its slashes, periods and backslashes where the text has them
(`splitOn_foldCase`), and its bytes are the bytes of the text, folded one by one
(`bytes_foldCase`).
-/

set_option autoImplicit false

namespace TierLint

open Glob

/-- A character that is no ASCII letter. -/
def IsNoLetter (c : Char) : Prop :=
  c.toNat < 0x41 ∨ (0x5A < c.toNat ∧ c.toNat < 0x61) ∨ 0x7A < c.toNat

/-- Capital letters move up by 32, and no other character moves. -/
theorem toNat_toLower (c : Char) :
    c.toLower.toNat = if 0x41 ≤ c.toNat ∧ c.toNat ≤ 0x5A then c.toNat + 0x20 else c.toNat := by
  have capitals : (c.val ≥ 'A'.val ∧ c.val ≤ 'Z'.val) ↔ 0x41 ≤ c.toNat ∧ c.toNat ≤ 0x5A := by
    rw [ge_iff_le, UInt32.le_iff_toNat_le, UInt32.le_iff_toNat_le]
    rfl
  by_cases capital : 0x41 ≤ c.toNat ∧ c.toNat ≤ 0x5A
  · have moved : c.toLower = _ := dif_pos (capitals.2 capital)
    rw [moved, if_pos capital]
    show (c.val + ('a'.val - 'A'.val)).toNat = c.toNat + 0x20
    rw [UInt32.toNat_add, Nat.mod_eq_of_lt]
    · rfl
    · show c.toNat + 0x20 < 2 ^ 32
      omega
  · have same : c.toLower = c := dif_neg (mt capitals.1 capital)
    rw [same, if_neg capital]

/-- A character that is no letter is the lowercase of itself alone. -/
theorem toLower_eq_iff {c d : Char} (h : IsNoLetter d) : c.toLower = d ↔ c = d := by
  rw [← Char.toNat_inj, ← Char.toNat_inj, toNat_toLower]
  unfold IsNoLetter at h
  split <;> omega

theorem toLower_beq {c d : Char} (h : IsNoLetter d) : (c.toLower == d) = (c == d) := by
  rw [Bool.eq_iff_iff, beq_iff_eq, beq_iff_eq]
  exact toLower_eq_iff h

/-! ## Bytes -/

theorem between_iff {x y b : UInt8} :
    (x ≤ b && b ≤ y) = true ↔ x.toNat ≤ b.toNat ∧ b.toNat ≤ y.toNat := by
  rw [Bool.and_eq_true, decide_eq_true_eq, decide_eq_true_eq, UInt8.le_iff_toNat_le,
    UInt8.le_iff_toNat_le]

theorem toNat_foldByte (b : UInt8) :
    (foldByte b).toNat = if 0x41 ≤ b.toNat ∧ b.toNat ≤ 0x5A then b.toNat + 0x20 else b.toNat := by
  have capitals : (0x41 ≤ b && b ≤ 0x5A) = true ↔ 0x41 ≤ b.toNat ∧ b.toNat ≤ 0x5A := between_iff
  rw [foldByte]
  by_cases capital : 0x41 ≤ b.toNat ∧ b.toNat ≤ 0x5A
  · rw [if_pos (capitals.2 capital), if_pos capital, UInt8.toNat_add, Nat.mod_eq_of_lt]
    · rfl
    · show b.toNat + 0x20 < 2 ^ 8
      omega
  · rw [if_neg (mt capitals.1 capital), if_neg capital]

@[simp] theorem foldByte_foldByte (b : UInt8) : foldByte (foldByte b) = foldByte b := by
  rw [← UInt8.toNat_inj, toNat_foldByte (foldByte b), toNat_foldByte b]
  by_cases capital : 0x41 ≤ b.toNat ∧ b.toNat ≤ 0x5A
  · rw [if_pos capital, if_neg (by omega)]
  · rw [if_neg capital, if_neg capital]

/-- The bytes of a character in lowercase are its bytes, folded. -/
theorem utf8EncodeChar_toLower (c : Char) :
    String.utf8EncodeChar c.toLower = (String.utf8EncodeChar c).map foldByte := by
  by_cases ascii : c.toNat < 128
  · have lower : c.toLower.toNat < 128 := by
      rw [toNat_toLower]
      split <;> omega
    rw [Text.utf8EncodeChar_of_lt ascii, Text.utf8EncodeChar_of_lt lower, List.map_singleton,
      List.singleton_inj, ← UInt8.toNat_inj, toNat_foldByte, UInt8.toNat_ofNat',
      UInt8.toNat_ofNat', Nat.mod_eq_of_lt (by omega), Nat.mod_eq_of_lt (by omega), toNat_toLower]
  · -- neither the character nor its bytes are ASCII
    have same : c.toLower = c := by
      rw [← Char.toNat_inj, toNat_toLower, if_neg (by omega)]
    have fixed : ∀ b ∈ String.utf8EncodeChar c, foldByte b = b := by
      intro b hb
      have high := Text.le_of_mem_utf8EncodeChar (Nat.not_lt.1 ascii) hb
      rw [← UInt8.toNat_inj, toNat_foldByte, if_neg (by omega)]
    rw [same, List.map_congr_left fixed, List.map_id']

/-! ## Texts -/

namespace Text

/-- The text with ASCII capital letters in lowercase. -/
def foldCase (t : Text) : Text := t.map Char.toLower

@[simp] theorem foldCase_nil : foldCase [] = [] := rfl

@[simp] theorem foldCase_cons (c : Char) (t : Text) :
    foldCase (c :: t) = c.toLower :: foldCase t := rfl

theorem bytes_foldCase (t : Text) : (foldCase t).bytes = t.bytes.map foldByte := by
  induction t with
  | nil => rfl
  | cons c t ih => rw [foldCase_cons, bytes_cons, bytes_cons, List.map_append, ih,
      utf8EncodeChar_toLower]

/-- A text without letters is the folding of itself alone. -/
theorem foldCase_eq_iff {d : Text} (h : ∀ c ∈ d, IsNoLetter c) {t : Text} :
    foldCase t = d ↔ t = d := by
  induction d generalizing t with
  | nil => exact List.map_eq_nil_iff
  | cons c d ih =>
    obtain ⟨hc, others⟩ := List.forall_mem_cons.1 h
    cases t with
    | nil => simp
    | cons b t => rw [foldCase_cons, List.cons.injEq, List.cons.injEq, toLower_eq_iff hc, ih others]

theorem foldCase_beq {d : Text} (h : ∀ c ∈ d, IsNoLetter c) {t : Text} :
    (foldCase t == d) = (t == d) := by
  rw [Bool.eq_iff_iff, beq_iff_eq, beq_iff_eq]
  exact foldCase_eq_iff h

/-- A separator that is no letter stays where it is. -/
theorem splitOn_foldCase {sep : Char} (h : IsNoLetter sep) (t : Text) :
    splitOn sep (foldCase t) = (splitOn sep t).map foldCase := by
  rw [splitOn_eq, splitOn_eq]
  induction t with
  | nil => rfl
  | cons c t ih =>
    rw [foldCase_cons, List.splitOn_cons_eq_if_modifyHead, List.splitOn_cons_eq_if_modifyHead, ih]
    rw [toLower_beq h]
    split
    · rfl
    · cases List.splitOn sep t <;> rfl

/-- The text begins with a character that is no letter, in either case. -/
theorem startsBy_foldCase {c : Char} (h : IsNoLetter c) (t : Text) :
    startsBy (· == c) (foldCase t) = startsBy (· == c) t := by
  cases t with
  | nil => rfl
  | cons d t => exact toLower_beq h

/-- Texts of the same bytes are the same. -/
theorem bytes_injective {s t : Text} (h : s.bytes = t.bytes) : s = t := by
  apply String.ofList_injective
  apply String.toByteArray_inj.1
  show List.utf8Encode s = List.utf8Encode t
  exact congrArg List.toByteArray h

end Text

end TierLint
