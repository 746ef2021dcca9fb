import Mathlib.Data.List.TakeWhile
import TierLint.Inline.Autolink
import TierLint.Inline.Escape
import TierLint.Proofs.Offsets.Basic

/-!
# Autolinks and escapes by byte offsets

The scheme and the address of an autolink are measured in bytes. No cut fails, and autolinks and
escapes are those that the readers find (`autolink_eq`, `escape_eq`).
-/

set_option autoImplicit false

namespace TierLint.Offsets

open Text

variable {t u v w : Text}

/-- The length of the autolink at the start of the text. -/
def autolink : Text → Except Fault (Option Nat)
  | '<' :: rest => do
    let scheme := (find? (!Autolink.isSchemeChar ·) rest).getD (byteLength rest)
    let behind ← sliceFrom rest scheme
    if !(2 ≤ scheme && scheme ≤ 32) || !startsBy Char.isAlpha rest
        || !startsBy (· == ':') behind then
      .ok none
    else
      match find? (· == '>') rest with
      | none => .ok none
      | some close =>
        let address ← sliceTo rest close
        if address.any fun c => c == ' ' || c == '<' then .ok none else .ok (some (close + 2))
  | _ => .ok none

/-- The length of the escape at the start of the text. -/
def escape : Text → Option Nat
  | '\\' :: c :: _ => if isAsciiPunctuation c then some 2 else none
  | _ => none

theorem dropWhile_of_any {d : Char} (h : t.any (· == d) = true) :
    ∃ behind, t.dropWhile (· != d) = d :: behind := by
  induction t with
  | nil => cases h
  | cons c t ih =>
    by_cases hc : c = d
    · exact ⟨t, by simp [hc]⟩
    · obtain ⟨behind, hb⟩ := ih (by simpa [hc] using h)
      exact ⟨behind, by rw [List.dropWhile_cons_of_pos (by simpa using hc), hb]⟩

/-- Letters, digits, plus signs, periods and hyphens are ASCII. -/
theorem ascii_of_isSchemeChar {c : Char} (h : Autolink.isSchemeChar c = true) : c.toNat < 128 := by
  simp only [Autolink.isSchemeChar, Char.isAlphanum, Bool.or_eq_true, beq_iff_eq] at h
  rcases h with (((letter | digit) | rfl) | rfl) | rfl
  · exact ascii_of_isAlpha letter
  · exact ascii_of_isDigit digit
  all_goals decide

theorem dropWhile_of_not_any {d : Char} (h : t.any (· == d) = false) :
    t.dropWhile (· != d) = [] := by
  rw [List.dropWhile_eq_nil_iff]
  intro c hc
  rw [bne_iff_ne]
  intro same
  exact Bool.eq_false_iff.1 h (List.any_eq_true.2 ⟨c, hc, beq_iff_eq.2 same⟩)

theorem autolink_of_ne {c : Char} (h : c ≠ '<') (t : Text) : autolink (c :: t) = .ok none := by
  simp [autolink, h]

theorem autolink_read?_of_not_hasScheme (h : Autolink.hasScheme t = false) :
    Autolink.read? ('<' :: t) = none := by
  simp only [Autolink.read?, h]
  split <;> rfl

theorem byteLength_autolinkSource (address : Text) :
    byteLength (Autolink.source address) = byteLength address + 2 := by
  have bracket : Char.utf8Size '<' = 1 ∧ Char.utf8Size '>' = 1 := by decide
  simp only [Autolink.source, byteLength_cons, byteLength_append, bracket, byteLength_nil]
  omega

/-- What the scanner looks at behind `<`: the scheme is tested as the reader tests it. -/
theorem autolink_cons (t : Text) :
    autolink ('<' :: t) =
      if !Autolink.hasScheme t then .ok none
      else match find? (· == '>') t with
        | none => .ok none
        | some close => (do
          let address ← sliceTo t close
          if address.any fun c => c == ' ' || c == '<' then .ok none
          else .ok (some (close + 2))) := by
  have split : t = t.takeWhile Autolink.isSchemeChar ++ t.dropWhile Autolink.isSchemeChar :=
    List.takeWhile_append_dropWhile.symm
  -- The scheme is counted in bytes; it is ASCII, so these are its characters.
  have scheme : byteLength (t.takeWhile Autolink.isSchemeChar) =
      (t.takeWhile Autolink.isSchemeChar).length :=
    byteLength_of_ascii fun c hc => ascii_of_isSchemeChar (List.mem_takeWhile_imp hc)
  simp only [autolink, find?_eq, Bool.not_not]
  rw [sliceFrom_of_eq split rfl, ok_bind, scheme, ← Bool.not_and, ← Bool.not_and]
  rfl

/-- Behind a scheme the address goes up to the first `>`. -/
theorem autolink_address (scheme : Autolink.hasScheme t = true) {address behind : Text}
    (h : t.takeWhile (· != '>') = address) (hb : t.dropWhile (· != '>') = '>' :: behind) :
    autolink ('<' :: t) = .ok ((Autolink.read? ('<' :: t)).map fun (address, _) =>
      byteLength (Autolink.source address)) := by
  have split : t = address ++ '>' :: behind := by
    rw [← h, ← hb]
    exact List.takeWhile_append_dropWhile.symm
  have close : t.any (· == '>') = true := by
    rw [split]
    simp
  have allowed : address.all (fun c => c != ' ' && c != '<') =
      !address.any fun c => c == ' ' || c == '<' := by
    rw [List.not_any_eq_all_not]
    simp only [Bool.not_or, bne]
  have found : find? (· == '>') t = some (byteLength address) := by
    rw [find?_eq_some close, ← h]
    rfl
  rw [autolink_cons, scheme, if_neg (by decide), found]
  simp only
  rw [sliceTo_of_eq split rfl, ok_bind, Autolink.read?, hb]
  simp only [scheme, Bool.true_and, h]
  rw [allowed]
  cases address.any fun c => c == ' ' || c == '<' with
  | true => rfl
  | false => exact congrArg (fun n => Except.ok (some n)) (byteLength_autolinkSource address).symm

/-- The scanner for autolinks finds what the reader finds. -/
theorem autolink_eq (t : Text) :
    autolink t = .ok ((Autolink.read? t).map fun (address, _) =>
      byteLength (Autolink.source address)) := by
  cases t with
  | nil => rfl
  | cons c rest =>
    by_cases hc : c = '<'
    · subst hc
      cases scheme : Autolink.hasScheme rest with
      | false =>
        rw [autolink_cons, scheme, autolink_read?_of_not_hasScheme scheme]
        rfl
      | true =>
        cases close : rest.any (· == '>') with
        | true =>
          rcases dropWhile_of_any close with ⟨behind, hb⟩
          exact autolink_address scheme rfl hb
        | false =>
          have none : Autolink.read? ('<' :: rest) = none := by
            rw [Autolink.read?, dropWhile_of_not_any close]
          rw [autolink_cons, scheme, find?_eq_none close, none]
          rfl
    · rw [autolink_of_ne hc]
      simp [Autolink.read?, hc]

/-- An escaped character is ASCII, and so the escape is as long as the scanner says. -/
theorem escape_eq (t : Text) :
    escape t = (Escape.read? t).map fun (c, _) => byteLength ['\\', c] := by
  unfold escape
  split
  · rename_i c rest
    by_cases h : isAsciiPunctuation c = true
    · have ascii : c.toNat < 128 := by
        simp only [isAsciiPunctuation, Bool.or_eq_true, Bool.and_eq_true, decide_eq_true_eq] at h
        omega
      have size : byteLength ['\\', c] = 2 := by
        rw [byteLength_cons, byteLength_cons, utf8Size_of_lt ascii]
        rfl
      have found : Escape.read? ('\\' :: c :: rest) = some (c, rest) := by
        rw [Escape.read?, if_pos h]
      rw [if_pos h, found, Option.map_some]
      exact congrArg some size.symm
    · simp [Escape.read?, h]
  · rename_i other
    have none : Escape.read? t = none := by
      unfold Escape.read?
      split
      · exact (other _ _ rfl).elim
      · rfl
    rw [none]
    rfl

end TierLint.Offsets
