import TierLint.Text.Quoted

/-!
# JSON

Values of JSON as far as reports need them, and their text with one member or
element on each line, indented by two spaces for each level.
-/

set_option autoImplicit false

namespace TierLint

/-- A value of JSON. -/
inductive JsonValue where
  | null
  | number (n : Nat)
  | string (t : Text)
  | array (elements : List JsonValue)
  | object (members : List (String × JsonValue))

namespace JsonValue

/-- How a character is written in a string. -/
def writeChar (c : Char) : Text :=
  if c == '"' || c == '\\' then ['\\', c]
  else if c == '\x08' then ['\\', 'b']
  else if c == '\t' then ['\\', 't']
  else if c == '\n' then ['\\', 'n']
  else if c == '\x0c' then ['\\', 'f']
  else if c == '\r' then ['\\', 'r']
  else if c.toNat < 0x20 then
    let digits := Text.hex c.toNat
    ['\\', 'u'] ++ List.replicate (4 - digits.length) '0' ++ digits
  else [c]

/-- A string. -/
def writeString (t : Text) : Text := '"' :: (t.flatMap writeChar ++ ['"'])

/-- A line break and the indentation of a level. -/
def newLine (level : Nat) : Text := '\n' :: List.replicate (2 * level) ' '

/-- Items between brackets, each on a line of its own on the level below. -/
def bracketed (level : Nat) (opening closing : Char) (items : List Text) : Text :=
  if items.isEmpty then [opening, closing]
  else
    opening :: ([','].intercalate (items.map (newLine (level + 1) ++ ·)) ++ newLine level)
      ++ [closing]

mutual

/-- The text of a value that stands on a level. -/
def pretty (level : Nat) : JsonValue → Text
  | null => "null".toList
  | number n => Nat.toDigits 10 n
  | string t => writeString t
  | array elements => bracketed level '[' ']' (prettyElements (level + 1) elements)
  | object members => bracketed level '\x7b' '\x7d' (prettyMembers (level + 1) members)

/-- The texts of elements. -/
def prettyElements (level : Nat) : List JsonValue → List Text
  | [] => []
  | v :: rest => pretty level v :: prettyElements level rest

/-- The texts of members. -/
def prettyMembers (level : Nat) : List (String × JsonValue) → List Text
  | [] => []
  | (name, v) :: rest =>
    (writeString name.toList ++ ": ".toList ++ pretty level v) :: prettyMembers level rest

end

end JsonValue

end TierLint
