import TierLint.Block.Line

/-!
# Blocks of raw HTML

A line that begins with a tag, a comment, a declaration or a processing
instruction starts raw HTML, which runs up to the next blank line. A name with
a colon directly behind it is the scheme of an autolink and starts nothing.
-/

set_option autoImplicit false

namespace TierLint

open Text

namespace Html

/-- Characters that tag names are made of. -/
def isNameChar (c : Char) : Bool := c.isAlphanum || c == '-'

/-- The text begins with a letter and a name that no colon follows. -/
def startsTag (t : Text) : Bool :=
  startsBy Char.isAlpha t && !startsBy (· == ':') (t.dropWhile isNameChar)

/-- The text begins raw HTML. -/
def startsBlock : Text → Bool
  | '<' :: '!' :: _ => true
  | '<' :: '?' :: _ => true
  | '<' :: '/' :: rest => startsTag rest
  | '<' :: rest => startsTag rest
  | _ => false

/-- Reads a block of raw HTML. -/
def read? : List Line → Option (List Line × List Line)
  | [] => none
  | l :: ls =>
    if l.indent ≤ 3 && startsBlock (trimStart l.content) then
      some (l :: ls.takeWhile (!·.isBlank), ls.dropWhile (!·.isBlank))
    else
      none

/-- The element for the block. -/
def element (lines : List Line) : Element :=
  .node .htmlBlock (lines.flatMap (·.elements .htmlContent))

theorem suffix_of_read? {l : Line} {ls lines rest : List Line}
    (h : read? (l :: ls) = some (lines, rest)) : rest <:+ ls := by
  obtain ⟨-, -, rfl⟩ := by simpa [read?] using h
  exact List.dropWhile_suffix _

end Html

end TierLint
