import TierLint.Proofs.Glob.Language
import TierLint.Proofs.Text.Case

/-!
# Globs do not see the case of letters

What a token stands for, it stands for with all ASCII letters in lowercase too (`takes_fold`). A
class holds a byte in one case or the other, and is negated only afterwards; slashes, which all
other wildcards look for, have no case. So a glob matches a text exactly if it matches the folded
text (`accepts_foldCase`).
-/

set_option autoImplicit false

namespace TierLint.Glob

/-! ## Single bytes -/

theorem toNat_otherCase (b : UInt8) :
    (otherCase b).toNat =
      if 0x41 ≤ b.toNat ∧ b.toNat ≤ 0x5A then b.toNat + 0x20
      else if 0x61 ≤ b.toNat ∧ b.toNat ≤ 0x7A then b.toNat - 0x20
      else b.toNat := by
  have capitals : (0x41 ≤ b && b ≤ 0x5A) = true ↔ 0x41 ≤ b.toNat ∧ b.toNat ≤ 0x5A := between_iff
  have others : (0x61 ≤ b && b ≤ 0x7A) = true ↔ 0x61 ≤ b.toNat ∧ b.toNat ≤ 0x7A := between_iff
  by_cases capital : 0x41 ≤ b.toNat ∧ b.toNat ≤ 0x5A
  · -- for a capital letter, the other case is the folded letter
    have folded : otherCase b = foldByte b := by
      rw [otherCase, foldByte, if_pos (capitals.2 capital), if_pos (capitals.2 capital)]
    rw [folded, toNat_foldByte, if_pos capital, if_pos capital]
  · rw [otherCase, if_neg (mt capitals.1 capital), if_neg capital]
    by_cases other : 0x61 ≤ b.toNat ∧ b.toNat ≤ 0x7A
    · rw [if_pos (others.2 other), if_pos other, UInt8.toNat_sub_of_le]
      · rfl
      · rw [UInt8.le_iff_toNat_le]
        show 0x20 ≤ b.toNat
        omega
    · rw [if_neg (mt others.1 other), if_neg other]

/-- The other case of the other case is the byte itself. -/
theorem otherCase_otherCase (b : UInt8) : otherCase (otherCase b) = b := by
  rw [← UInt8.toNat_inj, toNat_otherCase (otherCase b), toNat_otherCase b]
  by_cases capital : 0x41 ≤ b.toNat ∧ b.toNat ≤ 0x5A
  · rw [if_pos capital, if_neg (by omega), if_pos (by omega)]
    omega
  · rw [if_neg capital]
    by_cases small : 0x61 ≤ b.toNat ∧ b.toNat ≤ 0x7A
    · rw [if_pos small, if_pos (by omega)]
      omega
    · rw [if_neg small, if_neg capital, if_neg small]

/-- A folded byte is the byte, or the byte in the other case. -/
theorem foldByte_eq_or (b : UInt8) : foldByte b = b ∨ foldByte b = otherCase b := by
  rw [foldByte, otherCase]
  split
  · exact .inr rfl
  · exact .inl rfl

/-- No other byte is folded to a slash. -/
theorem foldByte_eq_slash_iff {b : UInt8} : foldByte b = slash ↔ b = slash := by
  rw [← UInt8.toNat_inj, ← UInt8.toNat_inj, toNat_foldByte]
  have code : slash.toNat = 0x2F := rfl
  split <;> omega

/-- A class holds both cases of a letter or none. -/
theorem classHolds_otherCase (ranges : List (Char × Char)) (b : UInt8) :
    classHolds ranges (otherCase b) = classHolds ranges b := by
  simp only [classHolds, otherCase_otherCase, Bool.or_comm]

theorem classHolds_foldByte (ranges : List (Char × Char)) (b : UInt8) :
    classHolds ranges (foldByte b) = classHolds ranges b := by
  rcases foldByte_eq_or b with same | other
  · rw [same]
  · rw [other, classHolds_otherCase]

/-- A property of bytes that does not see their case holds of a folded single byte if it holds of
the byte. -/
theorem exists_singleton_fold {p : UInt8 → Prop} (h : ∀ b, p (foldByte b) ↔ p b) {u : List UInt8} :
    (∃ b, p b ∧ u.map foldByte = [b]) ↔ ∃ b, p b ∧ u = [b] := by
  constructor
  · rintro ⟨c, hc, eq⟩
    obtain ⟨b, rfl, rfl⟩ := List.map_eq_singleton_iff.1 eq
    exact ⟨b, (h b).1 hc, rfl⟩
  · rintro ⟨b, hb, rfl⟩
    exact ⟨foldByte b, (h b).2 hb, rfl⟩

/-! ## Strings of bytes -/

/-- Bytes end with a slash if they do so when they are folded. -/
theorem exists_append_slash_fold {u : List UInt8} :
    (∃ w, u.map foldByte = w ++ [slash]) ↔ ∃ w, u = w ++ [slash] := by
  constructor
  · rintro ⟨w, eq⟩
    obtain ⟨v, s, rfl, rfl, last⟩ := List.map_eq_append_iff.1 eq
    obtain ⟨b, rfl, hb⟩ := List.map_eq_singleton_iff.1 last
    rw [foldByte_eq_slash_iff.1 hb]
    exact ⟨v, rfl⟩
  · rintro ⟨w, rfl⟩
    exact ⟨w.map foldByte, List.map_append⟩

/-- Bytes begin with a slash if they do so when they are folded. -/
theorem exists_slash_cons_fold {p : List UInt8 → Prop} (h : ∀ w, p (w.map foldByte) ↔ p w)
    {u : List UInt8} :
    (∃ w, p w ∧ u.map foldByte = slash :: w) ↔ ∃ w, p w ∧ u = slash :: w := by
  constructor
  · rintro ⟨_, hw, eq⟩
    obtain ⟨b, w, rfl, hb, rfl⟩ := List.map_eq_cons_iff.1 eq
    rw [foldByte_eq_slash_iff.1 hb]
    exact ⟨w, (h w).1 hw, rfl⟩
  · rintro ⟨w, hw, rfl⟩
    exact ⟨w.map foldByte, (h w).2 hw, rfl⟩

namespace Token

/-- Directories between two slashes are a slash, and directories behind it. -/
theorem takes_innerDirs_iff {u : List UInt8} :
    Takes u .innerDirs ↔ ∃ w, Takes w .leadingDirs ∧ u = slash :: w := by
  constructor
  · rintro (rfl | ⟨w, rfl⟩)
    · exact ⟨[], .inl rfl, rfl⟩
    · exact ⟨w ++ [slash], .inr ⟨w, rfl⟩, rfl⟩
  · rintro ⟨_, rfl | ⟨w, rfl⟩, rfl⟩
    · exact .inl rfl
    · exact .inr ⟨w, rfl⟩

mutual

/-- A token stands for bytes in either case. -/
theorem takes_fold (u : List UInt8) : (t : Token) → (t.Takes (u.map foldByte) ↔ t.Takes u)
  | .literal c => by
    rw [Takes, Takes, List.map_map]
    have once : foldByte ∘ foldByte = foldByte := funext foldByte_foldByte
    rw [once]
  | .one => by
    apply exists_singleton_fold
    intro b
    rw [bne_iff_ne, bne_iff_ne, Ne, Ne, foldByte_eq_slash_iff]
  | .many => by
    rw [Takes, Takes, List.forall_mem_map]
    simp only [bne_iff_ne, ne_eq, foldByte_eq_slash_iff]
  | .leadingDirs => by
    rw [Takes, Takes, List.map_eq_nil_iff, exists_append_slash_fold]
  | .innerDirs => by
    rw [takes_innerDirs_iff, takes_innerDirs_iff]
    apply exists_slash_cons_fold
    intro w
    rw [Takes, Takes, List.map_eq_nil_iff, exists_append_slash_fold]
  | .belowDir => by
    have any : ∀ v, Takes v .belowDir ↔ ∃ w, True ∧ v = slash :: w := by
      intro v
      simp only [true_and]
      rfl
    rw [any, any]
    exact exists_slash_cons_fold fun _ => Iff.rfl
  | .oneOf negated ranges => by
    apply exists_singleton_fold
    intro b
    rw [classHolds_foldByte]
  | .alternatives branches => by
    rw [Takes, Takes, takesAny_fold u branches, List.map_eq_nil_iff]

theorem takesAll_fold (u : List UInt8) :
    (ts : List Token) → (TakesAll (u.map foldByte) ts ↔ TakesAll u ts)
  | [] => List.map_eq_nil_iff
  | t :: ts => by
    rw [TakesAll, TakesAll]
    constructor
    · rintro ⟨_, _, eq, hv, hw⟩
      obtain ⟨v, w, rfl, rfl, rfl⟩ := List.map_eq_append_iff.1 eq
      exact ⟨v, w, rfl, (takes_fold v t).1 hv, (takesAll_fold w ts).1 hw⟩
    · rintro ⟨v, w, rfl, hv, hw⟩
      exact ⟨v.map foldByte, w.map foldByte, List.map_append, (takes_fold v t).2 hv,
        (takesAll_fold w ts).2 hw⟩

theorem takesAny_fold (u : List UInt8) :
    (bs : List (List Token)) → (TakesAny (u.map foldByte) bs ↔ TakesAny u bs)
  | [] => Iff.rfl
  | b :: bs => by
    rw [TakesAny, TakesAny, takesAll_fold u b, takesAny_fold u bs]

end

end Token

/-- A glob matches a text in either case. -/
theorem accepts_foldCase (g : Glob) (t : Text) : g.accepts t.foldCase = g.accepts t := by
  rw [Bool.eq_iff_iff, accepts_iff, accepts_iff, Text.bytes_foldCase, Token.takesAll_fold]

end TierLint.Glob
