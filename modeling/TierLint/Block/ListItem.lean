import TierLint.Block.IndentedCode
import TierLint.Block.Interruption

/-!
# List items

An item owns the line of its marker and the lines behind it that are indented
to its content, with the blank lines between them. Directly behind a line that
is not blank it also owns lines with less indentation, as long as they neither
carry a marker nor interrupt a paragraph. The lines without marker and
indentation are a document of their own.

Items with markers of one kind form a list, whatever blank lines stand between
them. Blank lines behind the last item do not belong to the list.
-/

set_option autoImplicit false

namespace TierLint

open Text

/-- An item of a list: the blank lines since the previous item, the marker, its
line, and the other lines of the item. -/
structure ListItem where
  gap : List Line
  marker : ListMarker
  first : Line
  rest : List Line
  deriving DecidableEq

namespace ListItem

/-- The line goes on with an item whose content begins at column `offset`.
Behind a blank line its indentation alone decides. -/
def continues (offset : Nat) (afterBlank : Bool) (l : Line) : Bool :=
  offset ≤ l.indent
    || (!afterBlank && (ListMarker.read? l.content).isNone && !l.interruptsParagraph)

/-- The line without as much of its indentation as the item's content has. -/
def strip (offset : Nat) (l : Line) : Line := l.advance (min l.indent offset)

/-- The lines inside the item. -/
def inner (i : ListItem) : List Line :=
  i.first.consume i.marker.contentOffset :: i.rest.map (strip i.marker.contentOffset)

/-- Number of lines behind the marker's line that belong to its item. -/
def reach (m : ListMarker) (first : Line) (ls : List Line) : Nat :=
  Line.reach (continues m.contentOffset) (isBlank (first.content.drop m.contentOffset)) ls

/-- The items of one list from the line `first` with marker `m` on, and the
lines behind the list. -/
def sequence (gap : List Line) (m : ListMarker) (first : Line) (ls : List Line) :
    List ListItem × List Line :=
  let n := reach m first ls
  let item : ListItem := ⟨gap, m, first, ls.take n⟩
  -- blank lines behind the item belong to the list only if another item follows them
  match _h : (ls.drop n).dropWhile (·.isBlank) with
  | [] => ([item], ls.drop n)
  | next :: behind =>
    match ListMarker.read? next.content with
    | some m' =>
      if m'.kind = m.kind then
        let (items, rest) := sequence ((ls.drop n).takeWhile (·.isBlank)) m' next behind
        (item :: items, rest)
      else
        ([item], ls.drop n)
    | none => ([item], ls.drop n)
termination_by ls.length
decreasing_by
  have := ((_h ▸ List.dropWhile_suffix _ : next :: behind <:+ ls.drop n).trans
    (List.drop_suffix n ls)).length_le
  simp at this
  omega

/-- Reads a list. -/
def read? : List Line → Option (List ListItem × List Line)
  | [] => none
  | l :: ls => (ListMarker.read? l.content).map fun m => sequence [] m l ls

/-- The elements for the item and the blank lines in front of it, given the
elements of its lines. -/
def elements (i : ListItem) (inside : List Element) : List Element :=
  let behindIndent := i.first.content.drop i.marker.indent
  i.gap.map Line.blankElement
    ++ [.node .listItem <|
      i.first.pendingElements
        ++ Element.spacing (i.first.content.take i.marker.indent)
        ++ [.token .listMarker i.marker.text]
        ++ Element.spacing ((behindIndent.drop i.marker.text.length).take i.marker.gap)
        ++ inside]

theorem weight_take_le (n : Nat) (lines : List Line) :
    Line.weight (lines.take n) ≤ Line.weight lines := by
  have := Line.weight_append (lines.take n) (lines.drop n)
  rw [List.take_append_drop] at this
  omega

/-- The lines inside an item weigh less than its line and all lines behind it. -/
theorem weight_inner_lt {m : ListMarker} {first : Line} (gap ls : List Line) (n : Nat)
    (h : ListMarker.read? first.content = some m) :
    Line.weight (inner ⟨gap, m, first, ls.take n⟩) < Line.weight (first :: ls) := by
  have nonempty := List.length_pos_iff.2 (ListMarker.ne_nil_of_read? h)
  have offset := ListMarker.contentOffset_pos_of_read? h
  have others : Line.weight ((ls.take n).map (strip m.contentOffset)) ≤ Line.weight ls :=
    Nat.le_trans (Line.weight_map_le _ _ fun k _ => by simp [strip, Line.advance])
      (weight_take_le n ls)
  simp only [inner, Line.consume, Line.weight_cons, List.length_drop]
  omega

theorem suffix_of_dropWhile_drop {n : Nat} {ls behind : List Line} {next : Line}
    (h : (ls.drop n).dropWhile (·.isBlank) = next :: behind) : next :: behind <:+ ls :=
  (h ▸ List.dropWhile_suffix _).trans (List.drop_suffix n ls)

/-- The lines inside any item of a list weigh less than the lines it was read
from, and the list ends in front of a tail of these lines. -/
theorem sequence_lighter_and_suffix {m : ListMarker} {first : Line} (gap ls : List Line)
    (h : ListMarker.read? first.content = some m) :
    (∀ i ∈ (sequence gap m first ls).1, Line.weight i.inner < Line.weight (first :: ls)) ∧
      (sequence gap m first ls).2 <:+ ls := by
  fun_induction sequence gap m first ls with
  | case1 gap m first ls n item _ =>
    exact ⟨by simpa [item] using weight_inner_lt gap ls n h, List.drop_suffix n ls⟩
  | case2 gap m first ls n item next behind split m' hm' same items rest eq ih =>
    have suffix := suffix_of_dropWhile_drop split
    have lighter := Line.weight_le_of_suffix suffix
    obtain ⟨later, final⟩ := ih hm'
    rw [eq] at later final
    refine ⟨fun i hi => ?_, final.trans ((List.suffix_cons next behind).trans suffix)⟩
    rcases List.mem_cons.1 hi with rfl | hi
    · exact weight_inner_lt gap ls n h
    · have := later i hi
      simp at this lighter ⊢
      omega
  | case3 gap m first ls n item =>
    exact ⟨by simpa [item] using weight_inner_lt gap ls n h, List.drop_suffix n ls⟩
  | case4 gap m first ls n item =>
    exact ⟨by simpa [item] using weight_inner_lt gap ls n h, List.drop_suffix n ls⟩

/-- The lines inside any item of a list weigh less than the lines the list was read from. -/
theorem weight_inner_lt_of_read? {lines rest : List Line} {items : List ListItem}
    (h : read? lines = some (items, rest)) {i : ListItem} (hi : i ∈ items) :
    Line.weight i.inner < Line.weight lines := by
  cases lines with
  | nil => simp [read?] at h
  | cons l ls =>
    obtain ⟨m, hm, eq⟩ := by simpa [read?] using h
    have lighter := (sequence_lighter_and_suffix [] ls hm).1 i
    rw [eq] at lighter
    exact lighter hi

theorem suffix_of_read? {l : Line} {ls rest : List Line} {items : List ListItem}
    (h : read? (l :: ls) = some (items, rest)) : rest <:+ ls := by
  obtain ⟨m, hm, eq⟩ := by simpa [read?] using h
  have suffix := (sequence_lighter_and_suffix [] ls hm).2
  rwa [eq] at suffix

end ListItem

end TierLint
