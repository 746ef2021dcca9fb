import TierLint.Syntax.Visit
import TierLint.Text.Quoted

/-!
# Dump of a tree

One line for each element in document order, indented by two spaces for each
node above it: the kind, the byte range, and for a token its quoted text. Long
texts are cut near their 21st byte.
-/

set_option autoImplicit false

namespace TierLint

namespace Dump

/-- The shortest beginning of the text that has at least `n` bytes, or all of it. -/
def beginning (n : Nat) : Text → Text
  | [] => []
  | c :: t => if n = 0 then [] else c :: beginning (n - c.utf8Size) t

/-- A token's text, cut if it has 25 bytes or more. -/
def excerpt (t : Text) : Text :=
  if Text.byteLength t < 25 then t else beginning 21 t ++ " ...".toList

/-- The line for one element. -/
def line (v : Visit) : Text :=
  let range := s!"{v.element.kind.name}@{v.start}..{v.stop}"
  let text := match v.element with
    | .token _ t => ' ' :: Text.quoted (excerpt t)
    | .node _ _ => []
  List.replicate (2 * v.depth) ' ' ++ range.toList ++ text ++ ['\n']

end Dump

/-- All lines of the dump. -/
def Element.dump (tree : Element) : Text := tree.visits.flatMap Dump.line

end TierLint
