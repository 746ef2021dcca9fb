import TierLint.Text

/-!
# Backslash escapes

A backslash in front of ASCII punctuation makes that character literal. In
front of anything else the backslash stands for itself.
-/

set_option autoImplicit false

namespace TierLint

/-- ASCII characters that are neither letters, digits, blanks nor controls. -/
def isAsciiPunctuation (c : Char) : Bool :=
  let n := c.toNat
  (0x21 ≤ n && n ≤ 0x2F) || (0x3A ≤ n && n ≤ 0x40) || (0x5B ≤ n && n ≤ 0x60)
    || (0x7B ≤ n && n ≤ 0x7E)

namespace Escape

/-- Reads an escape: the escaped character and the rest. -/
def read? : Text → Option (Char × Text)
  | '\\' :: c :: rest => if isAsciiPunctuation c then some (c, rest) else none
  | _ => none

theorem eq_of_read? {t rest : Text} {c : Char} (h : read? t = some (c, rest)) :
    t = '\\' :: c :: rest := by
  unfold read? at h
  split at h
  · split at h <;> simp_all
  · simp at h

end Escape

end TierLint
