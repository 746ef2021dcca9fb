import TierLint.Block.Line

/-!
# List markers

A bullet, or a number of at most nine digits with a period or parenthesis,
indented by at most three spaces or tabs and followed by a blank or the end of
the line. The blanks behind a marker belong to it, so that content begins in one
column for the whole item; only one of them does when the line holds nothing
else, or when there are more than four and the content is indented code.
-/

set_option autoImplicit false

namespace TierLint

open Text

/-- Items belong to one list if their markers have the same kind. -/
inductive MarkerKind where
  /-- A bullet of the given character. -/
  | bullet (c : Char)
  /-- A number with the given delimiter. -/
  | ordered (delimiter : Char)
  deriving DecidableEq

/-- A list marker: its indentation, its text, the blanks behind it that belong
to it, and the number it shows. -/
structure ListMarker where
  kind : MarkerKind
  indent : Nat
  text : Text
  gap : Nat
  number? : Option Nat
  deriving DecidableEq

namespace ListMarker

/-- Where the item's content begins on the marker's line. -/
def contentOffset (m : ListMarker) : Nat := m.indent + m.text.length + m.gap

/-- The number that decimal digits spell. -/
def decimal (digits : Text) : Nat := digits.foldl (fun n d => 10 * n + (d.toNat - '0'.toNat)) 0

/-- The bullet or number that begins the text: kind, number, text and rest. -/
def symbol? : Text → Option (MarkerKind × Option Nat × Text × Text)
  | [] => none
  | c :: rest =>
    if c == '-' || c == '*' || c == '+' then
      some (.bullet c, none, [c], rest)
    else
      let digits := (c :: rest).takeWhile Char.isDigit
      match (c :: rest).dropWhile Char.isDigit with
      | d :: behind =>
        if 1 ≤ digits.length && digits.length ≤ 9 && (d == '.' || d == ')') then
          some (.ordered d, some (decimal digits), digits ++ [d], behind)
        else
          none
      | [] => none

/-- The marker of a line with this content. -/
def read? (content : Text) : Option ListMarker :=
  match symbol? (unindented content) with
  | some (kind, number?, text, behind) =>
    let blanks := Text.indent behind
    if Text.indent content ≤ 3 && (behind.isEmpty || startsBy isIndentChar behind) then
      let gap := if isBlank behind || 4 < blanks then min blanks 1 else blanks
      some ⟨kind, Text.indent content, text, gap, number?⟩
    else
      none
  | none => none

/-- A line with this content begins an item that may end a paragraph: it is not
empty, and a numbered one begins at 1. -/
def interrupts (content : Text) : Bool :=
  match read? content with
  | some m =>
    !isBlank (content.drop m.contentOffset) && (m.number?.isNone || m.number? == some 1)
  | none => false

theorem text_ne_nil_of_symbol? {t text behind : Text} {kind : MarkerKind} {number? : Option Nat}
    (h : symbol? t = some (kind, number?, text, behind)) : text ≠ [] := by
  unfold symbol? at h
  split at h
  · simp at h
  · split at h
    · simp at h
      simp [← h.2.2.1]
    · split at h
      · simp at h
        simp [← h.2.2.2.1]
      · simp at h

/-- A marker takes at least one character. -/
theorem contentOffset_pos_of_read? {content : Text} {m : ListMarker} (h : read? content = some m) :
    0 < m.contentOffset := by
  unfold read? at h
  split at h
  · rename_i kind number? text behind hs
    have := List.length_pos_iff.2 (text_ne_nil_of_symbol? hs)
    obtain ⟨-, rfl⟩ := by simpa using h
    simp [contentOffset]
    omega
  · simp at h

theorem ne_nil_of_read? {content : Text} {m : ListMarker} (h : read? content = some m) :
    content ≠ [] := by
  rintro rfl
  simp [read?, unindented, symbol?] at h

end ListMarker

end TierLint
