import TierLint.Settings.Toml.DateTime
import TierLint.Settings.Toml.Numeral
import TierLint.Settings.Toml.Table

/-!
# Literals

Values as they are written: strings, booleans, numbers, dates and times, arrays
of values, and tables in braces. Between brackets or braces lines may break, and
comments may stand, except around the periods of a key.
-/

set_option autoImplicit false

namespace TierLint.Toml

/-- How deep arrays and tables in braces may be nested, and how many names a key may have. -/
def depthLimit : Nat := 80

/-- A character of a literal that is a single word. -/
def isWordChar (c : Char) : Bool :=
  c.isAlphanum || c == '_' || c == '+' || c == '-' || c == '.' || c == ':'

/-- The word at the start of a text. A date and a time with a space between them are one word. -/
def word (t : Text) : Text × Text :=
  let first := t.takeWhile isWordChar
  match t.dropWhile isWordChar with
  | ' ' :: rest =>
    if isDate first && Text.startsBy Char.isDigit rest then
      (first ++ ' ' :: rest.takeWhile isWordChar, rest.dropWhile isWordChar)
    else (first, ' ' :: rest)
  | rest => (first, rest)

/-- What a word means. -/
def wordValue? (w : Text) : Option Value :=
  if w == "true".toList then some (.bool true)
  else if w == "false".toList then some (.bool false)
  else match integer? w with
    | some n => some (.int n)
    | none =>
      if isFloat w then some .float
      else if isDateTime w then some .dateTime
      else none

/-- The string or word at the start of a text. -/
def scalar? (t : Text) : Option (Value × Text) :=
  if Text.startsBy (· == '"') t then do
    let (s, rest) ← QuoteStyle.basic.string? t
    some (.string s, rest)
  else if Text.startsBy (· == '\'') t then do
    let (s, rest) ← QuoteStyle.literal.string? t
    some (.string s, rest)
  else do
    let (w, rest) := word t
    let v ← wordValue? w
    some (v, rest)

/-- A key, an equals sign and a value; `skip` skips what may stand around the equals sign. -/
def assignment? (skip : Text → Text) (value? : Text → Option (Value × Text)) (t : Text) :
    Option ((Key × Value) × Text) := do
  let (key, t) ← key? depthLimit t
  let (v, t) ← value? (skip (← expect? '=' (skip t)))
  some ((key, v), t)

/-- The table that consists of some entries. -/
def tableOf? (entries : List (Key × Value)) : Option Fields :=
  entries.foldlM (fun fields (key, v) => Fields.insert key v fields) []

/-- The value at the start of a text, in which arrays and tables may be nested up to a depth. -/
def value? : (depth : Nat) → Text → Option (Value × Text)
  | 0, t => scalar? t
  | depth + 1, t =>
    match expect? '[' t with
    | some body => do
      let (elements, rest) ← items? ']' (value? depth) (body.length + 1) body
      some (.array elements, rest)
    | none => match expect? '\x7b' t with
      | some body => do
        let entry? := assignment? (skipGap false) (value? depth)
        let (entries, rest) ← items? '\x7d' entry? (body.length + 1) body
        some (.table (valuesOf (← tableOf? entries)), rest)
      | none => scalar? t

end TierLint.Toml
