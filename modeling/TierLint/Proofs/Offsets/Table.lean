import TierLint.Block.Table
import TierLint.Proofs.Block.Coverage
import TierLint.Proofs.Offsets.Inline
import TierLint.Proofs.Offsets.Leaf

/-!
# Tables by index and offset

The pipes between the cells of a row are found as offsets (`splitPoints`), and the row is cut at
them. The offsets are places in front of pipes, one behind the other, so no cut fails; the cells are
the pieces between the pipes (`cells_eq`), and the recogniser returns the table that the reader
returns (`table_eq`).
-/

set_option autoImplicit false

namespace TierLint.Offsets

open Text Element

variable {ps xs : List Placed} {x : Placed} {pos : Nat}

/-- The line begins with a pipe. -/
def isRow (l : RawLine) : Except Fault Bool := do
  .ok ((← l.indent) ≤ 3 && startsBy (· == '|') (trimStart (← l.content)))

/-- The line may stand below a header. -/
def isDelimiterRow (l : RawLine) : Except Fault Bool := do
  let t := trim (← l.content)
  .ok ((← isRow l) && t.contains '-'
    && t.all (fun c => c == '|' || c == ':' || c == '-' || c == ' ' || c == '\t'))

/-- The offsets of the pipes that separate cells, in a text that stands at byte `i`. -/
def splitPoints (inCode hidden : Bool) (i : Nat) : Text → List Nat
  | [] => []
  | c :: rest =>
    if hidden then splitPoints inCode false (i + c.utf8Size) rest
    else if c == '\\' then splitPoints inCode true (i + c.utf8Size) rest
    else if c == '`' then splitPoints (!inCode) false (i + c.utf8Size) rest
    else if c == '|' && !inCode then i :: splitPoints inCode false (i + c.utf8Size) rest
    else splitPoints inCode false (i + c.utf8Size) rest

/-- A cell with its white space; blank text at the edges of the row is no cell. -/
def cell (t : Text) (outer : Bool) : Except Fault (List Element) :=
  if outer && (trim t).isEmpty then .ok (spacing t)
  else do
    let leading ← trimmedLength t
    let core := trim t
    let front ← sliceTo t leading
    let inner ← inline core
    let trailing ← sliceFrom t (leading + Text.byteLength core)
    .ok [.node .tableCell (spacing front ++ inner ++ spacing trailing)]

/-- The cells of a row from byte `start` on, with the pipes between them at the given offsets. -/
def cells (content : Text) (start : Nat) : List Nat → Except Fault (List Element)
  | [] => do cell (← sliceFrom content start) true
  | pipe :: points => do
    let first ← cell (← slice content start pipe) (start == 0)
    let others ← cells content (pipe + 1) points
    .ok (first ++ .token .tablePipe ['|'] :: others)

/-- A header or body row. -/
def tableRow (l : RawLine) : Except Fault Element := do
  let content ← l.content
  .ok (.node .tableRow (← l.elementsWith (← cells content 0 (splitPoints false false 0 content))))

/-- The row with index `i`; the second one is the delimiter row. -/
def tableLine (row : RawLine × Nat) : Except Fault Element :=
  if row.2 = 1 then do .ok (.node .tableSeparator (← row.1.trimmed .tableSeparator))
  else tableRow row.1

/-- A table. -/
def table (ls : List RawLine) (pos : Nat) : Found :=
  match ls[pos]?, ls[pos + 1]? with
  | some header, some delimiter => do
    if !(← isRow header) || !(← isDelimiterRow delimiter) then .ok none
    else
      let stop ← firstNot isRow ls pos
      let taken ← linesBetween ls pos stop
      .ok (some (.node .table (← taken.zipIdx.mapM tableLine), stop))
  | _, _ => .ok none

/-! ## Cells -/

variable {u q v content : Text}

/-- The elements of the pieces between pipes; `outer` tells that the first piece begins the row. -/
def cellElements (outer : Bool) : List Text → List Element
  | [] => []
  | [piece] => Table.pieceElements true piece
  | piece :: rest => Table.pieceElements outer piece ++ Table.furtherElements rest

/-- The first piece with `q` in front of it. -/
def prependPiece (q : Text) (pieces : List Text) : List Text :=
  (q ++ pieces.headD []) :: pieces.tail

theorem prependPiece_consPiece (q : Text) (c : Char) (pieces : List Text) :
    prependPiece q (Table.consPiece c pieces) = prependPiece (q ++ [c]) pieces := by
  simp [prependPiece, Table.consPiece]

theorem prependPiece_nil {pieces : List Text} (h : pieces ≠ []) :
    prependPiece [] pieces = pieces := by
  cases pieces with
  | nil => exact absurd rfl h
  | cons p ps => rfl

theorem furtherElements_eq {pieces : List Text} (h : pieces ≠ []) :
    Table.furtherElements pieces = .token .tablePipe ['|'] :: cellElements false pieces := by
  cases pieces with
  | nil => exact absurd rfl h
  | cons p ps => cases ps <;> rfl

/-- A cell has the elements of its piece; the cuts around its text do not fail. -/
theorem cell_eq (t : Text) (outer : Bool) : cell t outer = .ok (Table.pieceElements outer t) := by
  rw [cell, isEmpty_trim, Table.pieceElements]
  split
  · rfl
  · have leading : t = t.takeWhile Unicode.isWhiteSpace ++ trimStart t :=
      List.takeWhile_append_dropWhile.symm
    have front : t.takeWhile Unicode.isWhiteSpace ++ trim t <+: t := by
      obtain ⟨rest, hr⟩ := dropEndWhile_isPrefix Unicode.isWhiteSpace (trimStart t)
      refine ⟨rest, ?_⟩
      rw [List.append_assoc, trim, trimEnd, hr, ← leading]
    have split := (append_drop_of_isPrefix front).symm
    rw [List.length_append] at split
    rw [trimmedLength_eq, ok_bind]
    simp only
    rw [sliceTo_of_eq leading rfl, ok_bind, inline_eq, ok_bind,
      sliceFrom_of_eq split (byteLength_append ..).symm, ok_bind]

/-- Cutting a row at the offsets of its pipes gives the pieces between them. Behind `u` the piece
`q` has been passed, and `v` follows. -/
theorem cells_eq {inCode hidden : Bool} (h : content = u ++ q ++ v) :
    cells content (Text.byteLength u) (splitPoints inCode hidden (Text.byteLength (u ++ q)) v) =
      .ok (cellElements (Text.byteLength u == 0)
        (prependPiece q (Table.pieces inCode hidden v))) := by
  induction v generalizing u q inCode hidden with
  | nil =>
    have rest : content = u ++ q := by rw [h, List.append_nil]
    rw [splitPoints, cells, sliceFrom_of_eq rest rfl, ok_bind, cell_eq, Table.pieces, prependPiece,
      List.headD_cons, List.append_nil]
    rfl
  | cons c v ih =>
    have place : Text.byteLength (u ++ q) + c.utf8Size = Text.byteLength (u ++ (q ++ [c])) := by
      simp [Nat.add_assoc]
    -- a character that does not separate joins the piece
    have joined : ∀ inCode hidden, cells content (Text.byteLength u)
        (splitPoints inCode hidden (Text.byteLength (u ++ q) + c.utf8Size) v) =
          .ok (cellElements (Text.byteLength u == 0)
            (prependPiece q (Table.consPiece c (Table.pieces inCode hidden v)))) := by
      intro inCode hidden
      rw [place, prependPiece_consPiece]
      exact ih (by rw [h]; simp)
    rw [splitPoints, Table.pieces]
    split
    · exact joined _ _
    split
    · exact joined _ _
    split
    · exact joined _ _
    split
    · -- a pipe ends the piece, and the next one begins behind it
      rename_i separates
      rw [Bool.and_eq_true, beq_iff_eq, Bool.not_eq_true'] at separates
      obtain ⟨rfl, rfl⟩ := separates
      have nonempty := Table.pieces_ne_nil false false v
      have piece : slice content (Text.byteLength u) (Text.byteLength (u ++ q)) = .ok q :=
        slice_of_eq h rfl (byteLength_append ..)
      have behind : Text.byteLength (u ++ q) + 1 = Text.byteLength (u ++ q ++ ['|']) :=
        byteLength_add_one (by decide) _
      have inner : (Text.byteLength (u ++ q ++ ['|']) == 0) = false := by
        rw [← behind]
        rfl
      have later : cells content (Text.byteLength (u ++ q ++ ['|']))
          (splitPoints false false (Text.byteLength (u ++ q ++ ['|'] ++ [])) v) =
            .ok (cellElements (Text.byteLength (u ++ q ++ ['|']) == 0)
              (prependPiece [] (Table.pieces false false v))) := ih (by rw [h]; simp)
      rw [List.append_nil, inner, prependPiece_nil nonempty, ← behind] at later
      have one : Text.byteLength (u ++ q) + Char.utf8Size '|' = Text.byteLength (u ++ q) + 1 := rfl
      rw [cells, piece, ok_bind, cell_eq, ok_bind, one, later, ok_bind, prependPiece,
        List.headD_cons, List.append_nil, List.tail_cons, ← furtherElements_eq nonempty]
      cases pieces : Table.pieces false false v with
      | nil => exact absurd pieces nonempty
      | cons p ps => rfl
    · exact joined _ _

/-- A row has the cells that the reader finds. -/
theorem cells_content (content : Text) :
    cells content 0 (splitPoints false false 0 content) = .ok (Table.rowElements content) := by
  have nonempty := Table.pieces_ne_nil false false content
  have whole : cells content 0 (splitPoints false false 0 content) =
      .ok (cellElements true (prependPiece [] (Table.pieces false false content))) :=
    cells_eq (u := []) (q := []) rfl
  rw [prependPiece_nil nonempty] at whole
  refine whole.trans ?_
  rw [Table.rowElements]
  cases Table.pieces false false content with
  | nil => rfl
  | cons p ps => cases ps <;> simp [cellElements, Table.furtherElements]

/-! ## Rows -/

theorem isRow_raw (x : Placed) : isRow x.raw = .ok (Table.isRow x.line) := by
  rw [isRow, x.indent_raw, ok_bind, x.content_raw, ok_bind]
  rfl

theorem isDelimiterRow_raw (x : Placed) :
    isDelimiterRow x.raw = .ok (Table.isDelimiterRow x.line) := by
  rw [isDelimiterRow, x.content_raw, ok_bind, isRow_raw, ok_bind]
  rfl

theorem tableRow_raw (x : Placed) : tableRow x.raw = .ok (Table.rowElement x.line) := by
  rw [tableRow, x.content_raw, ok_bind, cells_content, ok_bind, x.elementsWith_raw, ok_bind]
  rfl

theorem tableLine_row (x : Placed) {n : Nat} (h : n ≠ 1) :
    tableLine (x.raw, n) = .ok (Table.rowElement x.line) := by
  rw [tableLine, if_neg h, tableRow_raw]

theorem tableLine_delimiter (x : Placed) :
    tableLine (x.raw, 1) =
      .ok (.node .tableSeparator
        (x.line.elementsWith (trimmed .tableSeparator x.line.content))) := by
  rw [tableLine, if_pos rfl, x.trimmed_raw]
  rfl

theorem mapM_tableLine (xs : List Placed) {n : Nat} (h : 2 ≤ n) :
    ((raws xs).zipIdx n).mapM tableLine = .ok ((lines xs).map Table.rowElement) := by
  induction xs generalizing n with
  | nil => rfl
  | cons x xs ih =>
    rw [raws, List.map_cons, List.zipIdx_cons, List.mapM_cons, tableLine_row x (by omega), ok_bind,
      ih (by omega), ok_bind]
    rfl

/-- The rows of a table: the header, the delimiter row and the others. -/
theorem tableRows_eq {ys : List Placed} {header delimiter : Line} {body : List Line}
    (h : lines ys = header :: delimiter :: body) :
    (raws ys).zipIdx.mapM tableLine = .ok (Table.rowElement header ::
      .node .tableSeparator
        (delimiter.elementsWith (trimmed .tableSeparator delimiter.content)) ::
      body.map Table.rowElement) := by
  cases ys with
  | nil => cases h
  | cons x ys =>
    cases ys with
    | nil => cases (List.cons.inj h).2
    | cons y ys =>
      obtain ⟨rfl, others⟩ := List.cons.inj h
      obtain ⟨rfl, rfl⟩ := List.cons.inj others
      rw [raws, List.map_cons, List.map_cons, List.zipIdx_cons, List.zipIdx_cons, List.mapM_cons,
        List.mapM_cons, tableLine_row x Nat.zero_ne_one, ok_bind, tableLine_delimiter, ok_bind,
        mapM_tableLine _ (Nat.le_refl 2), ok_bind]
      rfl

/-- The recogniser returns the table that the reader returns. -/
theorem table_eq (hx : ps.drop pos = xs) :
    table (raws ps) pos = .ok ((Table.read? (lines xs)).map fun (t, rest) =>
      (t.element, ps.length - rest.length)) := by
  rw [table]
  cases xs with
  | nil =>
    rw [getElem?_of_drop_nil hx]
    rfl
  | cons x xs =>
    have hx' := drop_succ_of_drop hx
    have below := Nat.le_of_lt (lt_length_of_drop hx)
    rw [getElem?_of_drop hx]
    cases xs with
    | nil =>
      rw [getElem?_of_drop_nil hx']
      rfl
    | cons y xs =>
      rw [getElem?_of_drop hx', lines_cons, lines_cons, Table.read?]
      simp only [isRow_raw, isDelimiterRow_raw, ok_bind]
      by_cases begins : Table.isRow x.line = true ∧ Table.isDelimiterRow y.line = true
      · obtain ⟨header, delimiter⟩ := begins
        -- The delimiter row is a row too, and so the search from the header on takes both.
        have row : Table.isRow y.line = true := by
          rw [Table.isDelimiterRow, Bool.and_eq_true, Bool.and_eq_true] at delimiter
          exact delimiter.1.1
        have split : (lines xs).takeWhile Table.isRow ++ (lines xs).dropWhile Table.isRow =
            lines xs := List.takeWhile_append_dropWhile
        have search := firstNot_eq isRow_raw hx
        rw [lines_cons, lines_cons, List.takeWhile_cons_of_pos header,
          List.takeWhile_cons_of_pos row] at search
        generalize (lines xs).takeWhile Table.isRow = body at search split ⊢
        generalize (lines xs).dropWhile Table.isRow = behind at split ⊢
        have whole : (x.line :: y.line :: body) ++ behind = lines (x :: y :: xs) := by
          rw [List.cons_append, List.cons_append, split]
          rfl
        have stop := stop_of_append hx below whole
        obtain ⟨ys, range, same⟩ := exists_range hx below whole
        rw [header, delimiter, search]
        simp only [Bool.not_true, Bool.or_self, Bool.false_eq_true, if_false, Bool.and_self,
          if_true, ok_bind, range, tableRows_eq same, Option.map_some, stop, Table.element]
      · -- one of the two lines is no row of its kind
        have refused : (!Table.isRow x.line || !Table.isDelimiterRow y.line) =
            !(Table.isRow x.line && Table.isDelimiterRow y.line) := (Bool.not_and ..).symm
        have no : (Table.isRow x.line && Table.isDelimiterRow y.line) = false :=
          Bool.eq_false_iff.2 fun yes => begins (Bool.and_eq_true_iff.1 yes)
        rw [refused, no]
        rfl

end TierLint.Offsets
