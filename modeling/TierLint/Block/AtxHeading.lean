import TierLint.Block.Line
import TierLint.Inline.Elements

/-!
# Headings with a `#` marker

One to six `#`, indented by at most three bytes of white space and followed by
a blank or the end of the line. A run of `#` at the end of the line belongs to
the markup if a blank separates it from the text.

The level is found behind white space of any kind, but the marker is cut behind
spaces and tabs only: as many bytes as the level says. Behind other white space
the cut can fall inside a character, and then the heading has no tree.
-/

set_option autoImplicit false

namespace TierLint

open Text Element

/-- Why a text has no syntax tree. -/
inductive ParseError where
  /-- A heading's marker would end inside a character. -/
  | markerSplitsCharacter
  deriving DecidableEq

/-- The line of a heading, and the level its marker gives it. -/
structure AtxHeading where
  level : Nat
  line : Line
  deriving DecidableEq

namespace AtxHeading

/-- The level of the heading that a line with this content is. -/
def level? (content : Text) : Option Nat :=
  let t := trimStart content
  let n := runLength '#' t
  let behind := afterRun '#' t
  if byteLength (content.takeWhile Unicode.isWhiteSpace) ≤ 3 && 1 ≤ n && n ≤ 6
      && (behind.isEmpty || startsBy isIndentChar behind) then
    some n
  else
    none

/-- Reads a heading. -/
def read? : List Line → Option (AtxHeading × List Line)
  | [] => none
  | l :: ls => (level? l.content).map fun level => (⟨level, l⟩, ls)

/-- Cuts a heading's text into the text proper and the closing `#` run with the
white space in front of it. -/
def splitClosing (body : Text) : Text × Text :=
  let withoutRun := dropEndWhile (· == '#') body
  if withoutRun.length == body.length then (body, [])
  else if withoutRun.isEmpty then ([], body)
  else if endsBy isIndentChar withoutRun then
    let text := trimEnd withoutRun
    (text, body.drop text.length)
  else (body, [])

/-- What follows the marker. -/
def bodyElements (t : Text) : List Element :=
  let body := trimEnd (unindented t)
  let (text, closing) := splitClosing body
  spacing (indentation t)
    ++ [.node .headingContent (Inline.elements text)]
    ++ spacing (closing.takeWhile Unicode.isWhiteSpace)
    ++ tokenUnlessEmpty .headingMarker (trimStart closing)
    ++ spacing ((unindented t).drop body.length)

/-- The element for the heading. -/
def element (h : AtxHeading) : Except ParseError Element :=
  match splitAtByte h.level (unindented h.line.content) with
  | some (marker, behind) =>
    .ok <| .node .heading <| h.line.elementsWith <|
      spacing (indentation h.line.content)
        ++ [.node .headingMarker [.token .headingMarker marker]]
        ++ bodyElements behind
  | none => .error .markerSplitsCharacter

theorem suffix_of_read? {l : Line} {ls rest : List Line} {h : AtxHeading}
    (eq : read? (l :: ls) = some (h, rest)) : rest <:+ ls := by
  obtain ⟨level, -, -, rfl⟩ := by simpa [read?] using eq
  exact List.suffix_refl _

end AtxHeading

end TierLint
