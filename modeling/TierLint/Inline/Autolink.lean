import TierLint.Text

/-!
# Autolinks

An address in angle brackets: a scheme of 2 to 32 letters, digits, `+`, `.` and
`-` that begins with a letter, a colon, and then no space and no `<` up to the
closing `>`.
-/

set_option autoImplicit false

namespace TierLint

namespace Autolink

/-- Characters that schemes are made of. -/
def isSchemeChar (c : Char) : Bool := c.isAlphanum || c == '+' || c == '.' || c == '-'

/-- The text begins with a scheme and the colon behind it. -/
def hasScheme (t : Text) : Bool :=
  let scheme := t.takeWhile isSchemeChar
  2 ≤ scheme.length && scheme.length ≤ 32 && Text.startsBy Char.isAlpha t
    && Text.startsBy (· == ':') (t.dropWhile isSchemeChar)

/-- Reads an autolink: the address between the brackets and the rest. -/
def read? : Text → Option (Text × Text)
  | '<' :: t =>
    let address := t.takeWhile (· != '>')
    match t.dropWhile (· != '>') with
    | _ :: rest =>
      if hasScheme t && address.all (fun c => c != ' ' && c != '<') then
        some (address, rest)
      else
        none
    | [] => none
  | _ => none

/-- The autolink as it is written. -/
def source (address : Text) : Text := '<' :: (address ++ ['>'])

theorem eq_of_read? {t address rest : Text} (h : read? t = some (address, rest)) :
    t = source address ++ rest := by
  unfold read? at h
  split at h
  · rename_i inner
    have split_eq := List.takeWhile_append_dropWhile (p := (· != '>')) (l := inner)
    cases hd : inner.dropWhile (· != '>') with
    | nil => simp [hd] at h
    | cons c behind =>
      have hc : c = '>' := by
        have := List.head_dropWhile_not (p := (· != '>')) (l := inner) (by simp [hd])
        simpa [hd] using this
      obtain ⟨-, rfl, rfl⟩ := by simpa [hd] using h
      rw [hd, hc] at split_eq
      simp [source, split_eq]
  · simp at h

end Autolink

end TierLint
