import TierLint.Settings.Toml.StringLiteral

/-!
# Keys

A key is a path of names with periods between them. A name is bare, made of
letters, digits, underscores and hyphens, or a string on one line.
-/

set_option autoImplicit false

namespace TierLint.Toml

/-- The names of the tables that a key leads through, and the last name. -/
structure Key where
  path : List Text
  name : Text

/-- A character of a bare name. -/
def isBare (c : Char) : Bool := c.isAlphanum || c == '_' || c == '-'

/-- The name at the start of a text. -/
def name? (t : Text) : Option (Text × Text) :=
  match expect? '"' t with
  | some body => QuoteStyle.basic.line? body
  | none => match expect? '\'' t with
    | some body => QuoteStyle.literal.line? body
    | none => if Text.startsBy isBare t then some (t.takeWhile isBare, t.dropWhile isBare) else none

/-- The key at the start of a text, of at most `limit` names, with blanks around them. -/
def key? : (limit : Nat) → Text → Option (Key × Text)
  | 0, _ => none
  | limit + 1, t => do
    let (name, t) ← name? (skipBlanks t)
    let t := skipBlanks t
    match expect? '.' t with
    | some rest => do
      let (key, rest) ← key? limit rest
      some (⟨name :: key.path, key.name⟩, rest)
    | none => some (⟨[], name⟩, t)

end TierLint.Toml
