import TierLint.Block.Line

/-!
# Block quotes

Consecutive lines that begin with `>`, indented by at most three spaces or
tabs. The marker takes one blank behind it along. The lines without their
markers are a document of their own.
-/

set_option autoImplicit false

namespace TierLint

open Text

namespace Quote

/-- The line begins with a quote marker. -/
def isQuoted (l : Line) : Bool :=
  l.indent ≤ 3 && startsBy (· == '>') (unindented l.content)

/-- The length of a quote marker, with its indentation and the blank behind it. -/
def markerLength (l : Line) : Nat :=
  l.indent + 1 + (if startsBy isIndentChar ((unindented l.content).drop 1) then 1 else 0)

/-- The line with its marker moved aside. -/
def strip (l : Line) : Line := l.advance (markerLength l)

/-- Reads a block quote: the lines inside and the lines behind it. -/
def read? : List Line → Option (List Line × List Line)
  | [] => none
  | l :: ls =>
    if isQuoted l then
      some ((l :: ls.takeWhile isQuoted).map strip, ls.dropWhile isQuoted)
    else
      none

theorem content_length_strip_lt {l : Line} (h : isQuoted l) :
    (strip l).content.length < l.content.length := by
  have nonempty : 0 < l.content.length := by
    cases hl : l.content with
    | nil => simp [isQuoted, unindented, startsBy, hl] at h
    | cons => simp
  simp [strip, Line.advance, markerLength]
  omega

/-- The lines inside a quote weigh less than the lines it was read from. -/
theorem weight_lt_of_read? {lines inner rest : List Line} (h : read? lines = some (inner, rest)) :
    Line.weight inner < Line.weight lines := by
  cases lines with
  | nil => simp [read?] at h
  | cons l ls =>
    obtain ⟨quoted, rfl, -⟩ := by simpa [read?] using h
    have first := content_length_strip_lt quoted
    have others : Line.weight ((ls.takeWhile isQuoted).map strip) ≤ Line.weight ls :=
      calc Line.weight ((ls.takeWhile isQuoted).map strip)
          ≤ Line.weight (ls.takeWhile isQuoted) :=
            Line.weight_map_le _ _ fun k _ => by simp [strip, Line.advance]
        _ ≤ Line.weight (ls.takeWhile isQuoted) + Line.weight (ls.dropWhile isQuoted) :=
            Nat.le_add_right ..
        _ = Line.weight ls := by
            rw [← Line.weight_append, List.takeWhile_append_dropWhile]
    simp
    omega

theorem suffix_of_read? {l : Line} {ls inner rest : List Line}
    (h : read? (l :: ls) = some (inner, rest)) : rest <:+ ls := by
  obtain ⟨-, -, rfl⟩ := by simpa [read?] using h
  exact List.dropWhile_suffix _

end Quote

end TierLint
