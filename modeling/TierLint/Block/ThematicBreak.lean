import TierLint.Block.Line

/-!
# Thematic breaks

Three or more of one of the characters `-`, `*` and `_`, with spaces and tabs
between them, indented by at most three bytes of white space.
-/

set_option autoImplicit false

namespace TierLint

open Text

namespace ThematicBreak

/-- A line with this content is a thematic break. -/
def isBreak (content : Text) : Bool :=
  match trimStart content with
  | [] => false
  | c :: rest =>
    byteLength (content.takeWhile Unicode.isWhiteSpace) ≤ 3
      && (c == '-' || c == '*' || c == '_')
      && rest.all (fun d => d == c || isIndentChar d)
      && 3 ≤ 1 + rest.count c

/-- Reads a thematic break. -/
def read? : List Line → Option (Line × List Line)
  | [] => none
  | l :: ls => if isBreak l.content then some (l, ls) else none

/-- The element for the line. -/
def element (l : Line) : Element :=
  .node .thematicBreak (l.elementsWith (Element.trimmed .horizontalRule l.content))

theorem suffix_of_read? {l k : Line} {ls rest : List Line}
    (h : read? (l :: ls) = some (k, rest)) : rest <:+ ls := by
  obtain ⟨-, -, rfl⟩ := by simpa [read?] using h
  exact List.suffix_refl _

end ThematicBreak

end TierLint
