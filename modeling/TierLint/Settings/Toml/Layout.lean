import TierLint.Text

/-!
# Layout of settings files

What stands between the parts of a settings file in TOML notation: blanks,
comments and line breaks. A line breaks at a line feed, with or without a
carriage return in front of it; a carriage return alone is allowed nowhere, and
neither is any other control character except for the tab.
-/

set_option autoImplicit false

namespace TierLint.Toml

/-- Spaces and tabs separate the parts of a line. -/
def isBlank (c : Char) : Bool := c == ' ' || c == '\t'

/-- A character that comments and strings may hold as it is: all but control characters, of which
the tab is allowed. -/
def isPlain (c : Char) : Bool := c == '\t' || (0x20 ≤ c.toNat && c.toNat != 0x7F)

/-- What follows the blanks at the start of a text. -/
def skipBlanks (t : Text) : Text := t.dropWhile isBlank

/-- What follows the line break at the start of a text. -/
def newline? : Text → Option Text
  | '\n' :: t => some t
  | '\r' :: '\n' :: t => some t
  | _ => none

/-- What follows the comment at the start of a text, if one begins there. -/
def skipComment : Text → Text
  | '#' :: t => t.dropWhile isPlain
  | t => t

/-- What follows the end of the line: blanks, a comment, and the line break or the end of the
text. -/
def lineEnd? (t : Text) : Option Text :=
  match skipComment (skipBlanks t) with
  | [] => some []
  | rest => newline? rest

/-- What follows the blanks, line breaks and comments at the start of a text, which itself lies in
a comment or not. -/
def skipGap (inComment : Bool) : Text → Text
  | [] => []
  | '\n' :: t => skipGap false t
  | '\r' :: '\n' :: t => skipGap false t
  | c :: t =>
    if inComment then
      if isPlain c then skipGap true t else c :: t
    else if isBlank c then skipGap false t
    else if c == '#' then skipGap true t
    else c :: t

/-- What follows the character `c` at the start of a text. -/
def expect? (c : Char) : Text → Option Text
  | [] => none
  | d :: t => if d == c then some t else none

/-- Reads items with commas between them up to the character `close`; a comma may follow the last
one. Around items there may be line breaks and comments. `limit` is a bound on their number. -/
def items? {α : Type} (close : Char) (item? : Text → Option (α × Text)) :
    (limit : Nat) → Text → Option (List α × Text)
  | 0, _ => none
  | limit + 1, t =>
    let t := skipGap false t
    match expect? close t with
    | some rest => some ([], rest)
    | none => do
      let (a, t) ← item? t
      let t := skipGap false t
      match expect? ',' t with
      | some rest => do
        let (as, rest) ← items? close item? limit rest
        some (a :: as, rest)
      | none => do
        let rest ← expect? close t
        some ([a], rest)

end TierLint.Toml
