import TierLint.Lint.Diagnostic
import TierLint.Text

/-!
# Overlong lines

The lines of a text that have more characters than a limit. Lines that begin or
end a fenced region, lines inside of one and table rows have no limit. The lines
are those of the raw text, between line feeds; a carriage return in front of a
line feed or at the end of the text does not count.
-/

set_option autoImplicit false

namespace TierLint

open Text

namespace LineLength

/-- The line without one carriage return at its end. -/
def withoutReturn (line : Text) : Text :=
  if endsBy (· == '\r') line then line.dropLast else line

/-- The line begins or ends a fenced region. -/
def isFence (line : Text) : Bool :=
  let t := trim line
  "```".toList.isPrefixOf t || "~~~".toList.isPrefixOf t

/-- The line is a table row. -/
def isTableRow (line : Text) : Bool := startsBy (· == '|') (trim line)

/-- The part of a line behind the first `limit` characters, if there is one. -/
def overflow? (limit : Nat) (line : Text) : Option Text :=
  match line.drop limit with
  | [] => none
  | t => some t

/-- The overlong lines of consecutive raw lines, the first of which has the
given number and starts at byte `start`; `inFence` tells whether it lies in a
fenced region. Each location runs from the first character past the limit to the
end of the line. -/
def overlong (limit : Nat) (number start : Nat) (inFence : Bool) : List Text → List Location
  | [] => []
  | raw :: rest =>
    let line := withoutReturn raw
    let next := start + byteLength raw + 1
    if isFence line then
      overlong limit (number + 1) next (!inFence) rest
    else
      let here :=
        if inFence || isTableRow line then []
        else (overflow? limit line).toList.map fun t =>
          let stop := start + byteLength line
          ⟨⟨number, limit + 1⟩, stop - byteLength t, stop⟩
      here ++ overlong limit (number + 1) next inFence rest

/-- The overlong lines of a text. -/
def locations (limit : Nat) (t : Text) : List Location :=
  overlong limit 1 0 false (splitOn '\n' t)

end LineLength

end TierLint
