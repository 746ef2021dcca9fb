import TierLint.Text

/-!
# Positions

A position is a line and a column, both counted from 1; columns count
characters. A byte offset has the position of the character that begins there.
An offset inside a character has the position behind it, and an offset past the
end of the text has the position of the end.
-/

set_option autoImplicit false

namespace TierLint

/-- A line and a column. -/
structure Position where
  line : Nat
  column : Nat
  deriving DecidableEq

namespace Position

/-- The position at the beginning of a text. -/
def start : Position := ⟨1, 1⟩

/-- The position behind the character `c`. -/
def after (p : Position) (c : Char) : Position :=
  if c == '\n' then ⟨p.line + 1, 1⟩ else ⟨p.line, p.column + 1⟩

/-- The position `offset` bytes behind `p`, where the text `t` stands. -/
def advance (p : Position) (offset : Nat) : Text → Position
  | [] => p
  | c :: t => if offset = 0 then p else advance (p.after c) (offset - c.utf8Size) t

/-- The position of a byte offset. -/
def ofOffset (t : Text) (offset : Nat) : Position := start.advance offset t

end Position

/-- A range of bytes, with the position where it starts. -/
structure Location where
  position : Position
  start : Nat
  stop : Nat

/-- The location of a range of bytes in a text. -/
def Location.ofRange (t : Text) (start stop : Nat) : Location :=
  ⟨Position.ofOffset t start, start, stop⟩

end TierLint
