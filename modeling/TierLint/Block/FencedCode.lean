import TierLint.Block.Line

/-!
# Fenced code blocks

A fence is a run of three or more backticks or tildes. The block ends with the
next line that holds a run of the same character, at least as long and followed
by white space only, or with the container. A backtick fence has no backtick in
the rest of its line.

The indentation in front of a closing fence is white space of any kind when the
fence is looked for, and spaces and tabs when it is written, so the marker of a
closing fence behind other white space is empty.
-/

set_option autoImplicit false

namespace TierLint

open Text Element

/-- The character of a code fence, and how often it stands there. -/
structure Fence where
  mark : Char
  length : Nat
  deriving DecidableEq

namespace Fence

/-- The fence that begins the text. -/
def open? : Text → Option Fence
  | [] => none
  | c :: rest =>
    let length := 1 + runLength c rest
    if (c == '`' || c == '~') && 3 ≤ length && !(c == '`' && (afterRun c rest).contains '`') then
      some ⟨c, length⟩
    else
      none

/-- The line closes a block that the fence opened. -/
def closedBy (f : Fence) (l : Line) : Bool :=
  let t := trimStart l.content
  l.indent ≤ 3 && f.length ≤ runLength f.mark t && isBlank (afterRun f.mark t)

end Fence

/-- A fenced code block; without a closing line it ends with its container. -/
structure FencedCode where
  fence : Fence
  opening : Line
  content : List Line
  closing? : Option Line
  deriving DecidableEq

namespace FencedCode

/-- Reads a fenced code block. -/
def read? : List Line → Option (FencedCode × List Line)
  | [] => none
  | l :: ls =>
    if l.indent ≤ 3 then
      (Fence.open? (unindented l.content)).map fun fence =>
        let behind := ls.dropWhile (!fence.closedBy ·)
        (⟨fence, l, ls.takeWhile (!fence.closedBy ·), behind.head?⟩, behind.tail)
    else
      none

/-- The content of the opening line. -/
def openingElements (b : FencedCode) : List Element :=
  let t := unindented b.opening.content
  spacing (indentation b.opening.content)
    ++ [.token .codeFenceMarker (t.take b.fence.length)]
    ++ trimmed .codeInfo (t.drop b.fence.length)

/-- The content of the closing line. -/
def closingElements (b : FencedCode) (l : Line) : List Element :=
  let t := unindented l.content
  spacing (indentation l.content)
    ++ [.token .codeFenceMarker (t.takeWhile (· == b.fence.mark))]
    ++ spacing (afterRun b.fence.mark t)

/-- The element for the block. -/
def element (b : FencedCode) : Element :=
  let content := b.content.flatMap (·.elements .text)
  .node .codeBlock <|
    .node .codeFenceOpen (b.opening.elementsWith b.openingElements)
      :: (if b.content.isEmpty then [] else [.node .codeContent content])
      ++ b.closing?.toList.map fun l => .node .codeFenceClose (l.elementsWith (b.closingElements l))

theorem suffix_of_read? {l : Line} {ls rest : List Line} {b : FencedCode}
    (h : read? (l :: ls) = some (b, rest)) : rest <:+ ls := by
  obtain ⟨-, fence, -, -, rfl⟩ := by simpa [read?] using h
  exact (List.tail_suffix _).trans (List.dropWhile_suffix _)

end FencedCode

end TierLint
