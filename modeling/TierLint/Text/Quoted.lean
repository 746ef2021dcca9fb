import TierLint.Text
import TierLint.Unicode.Printable

/-!
# Quoted text

Text between double quotes, in which a quote and a backslash are written behind
a backslash, the common controls by their letter, and every other character
that has no form of its own by its code point in hexadecimal.
-/

set_option autoImplicit false

namespace TierLint.Text

open Unicode

/-- A number in lowercase hexadecimal. -/
def hex (n : Nat) : Text := Nat.toDigits 16 n

/-- How a character is written between quotes. -/
def quoteChar (c : Char) : Text :=
  if c == '"' || c == '\\' then ['\\', c]
  else if c == '\n' then ['\\', 'n']
  else if c == '\r' then ['\\', 'r']
  else if c == '\t' then ['\\', 't']
  else if c == '\x00' then ['\\', '0']
  else if isPrintable c && !isGraphemeExtend c then [c]
  else ['\\', 'u', '\x7b'] ++ hex c.toNat ++ ['\x7d']

/-- The text between quotes. -/
def quoted (t : Text) : Text := '"' :: (t.flatMap quoteChar ++ ['"'])

end TierLint.Text
