import TierLint.Block.Line

/-!
# Front matter

A document may begin with metadata between a line of three dashes and a line of
three dashes or periods. Without the closing line there is no front matter.
-/

set_option autoImplicit false

namespace TierLint

open Text Element

/-- Front matter with its delimiter lines. -/
structure FrontMatter where
  opening : Line
  content : List Line
  closing : Line

namespace FrontMatter

/-- The line may stand above front matter. -/
def opens (l : Line) : Bool := trimEnd l.content == ['-', '-', '-']

/-- The line may stand below front matter. -/
def closes (l : Line) : Bool :=
  trimEnd l.content == ['-', '-', '-'] || trimEnd l.content == ['.', '.', '.']

/-- Reads front matter. -/
def read? : List Line → Option (FrontMatter × List Line)
  | [] => none
  | l :: ls =>
    match ls.dropWhile (!closes ·) with
    | closing :: rest =>
      if opens l then some (⟨l, ls.takeWhile (!closes ·), closing⟩, rest) else none
    | [] => none

/-- The element for the front matter. -/
def element (f : FrontMatter) : Element :=
  let delimiter (l : Line) := l.elementsWith (trimmed .frontMatterDelimiter l.content)
  .node .frontMatter <|
    delimiter f.opening
      ++ f.content.flatMap (·.elements .frontMatterContent)
      ++ delimiter f.closing

end FrontMatter

end TierLint
