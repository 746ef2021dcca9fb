import TierLint.Syntax.Element
import TierLint.Unicode.Lowercase

/-!
# Prose of a tree

What a reader of the rendered text would see: literal text, line ends, escaped
characters without their backslash, addresses without their brackets and image
texts. Inline code counts as prose here. Headings are looked up by their prose,
trimmed and in lowercase, and carry their level in their marker.
-/

set_option autoImplicit false

namespace TierLint

namespace Element

/-- The character of an escape. Every leading backslash is dropped, so an
escaped backslash leaves nothing. -/
def escapedText (t : Text) : Text := t.dropWhile (· == '\\')

/-- The part of a token's text that is prose. -/
def tokenProse (k : Kind) (t : Text) : Text :=
  match k with
  | .text | .newline | .imageText => t
  | .escapedChar => escapedText t
  | .autolink => Text.dropEndWhile (· == '>') (t.dropWhile (· == '<'))
  | _ => []

mutual

/-- The prose of an element. -/
def prose : Element → Text
  | .token k t => tokenProse k t
  | .node _ es => proseOf es

/-- The prose of a sequence of elements. -/
def proseOf : List Element → Text
  | [] => []
  | e :: es => e.prose ++ proseOf es

end

/-- The level that a marker or underline node gives to its heading. -/
def markedLevel? : Element → Option Nat
  | .node .headingMarker es => some ((Text.trim (textOf es)).count '#')
  | .node .headingUnderline es =>
    some (if Text.startsBy (· == '=') (Text.trimStart (textOf es)) then 1 else 2)
  | _ => none

/-- The level of a heading: the length of its `#` run, or the kind of its underline. -/
def headingLevel? (heading : Element) : Option Nat :=
  heading.children.findSome? markedLevel?

/-- The prose of a heading as it is looked up in vocabularies. -/
def headingTerm (heading : Element) : Text := Unicode.lowercase (Text.trim heading.prose)

end Element

end TierLint
