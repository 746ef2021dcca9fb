import TierLint.Block.Elements
import TierLint.Block.FrontMatter

/-!
# Documents

The syntax tree of a text: front matter, if the text begins with it, and then
the blocks of the remaining lines.
-/

set_option autoImplicit false

namespace TierLint

namespace Document

/-- The elements of a document with the given lines. -/
def elements (lines : List Line) : Except ParseError (List Element) :=
  match FrontMatter.read? lines with
  | some (frontMatter, rest) => do .ok (frontMatter.element :: (← Block.elementsOf rest))
  | none => Block.elementsOf lines

/-- The syntax tree of a text. -/
def parse (t : Text) : Except ParseError Element := do
  .ok (.node .root [.node .document (← elements (Line.ofText t))])

end Document

end TierLint
