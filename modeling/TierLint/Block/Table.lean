import TierLint.Block.Line
import TierLint.Inline.Elements

/-!
# Tables

A row begins with a pipe, indented by at most three spaces or tabs. A row with
a delimiter row of dashes, colons and pipes below it is the header of a table,
which all following rows belong to. Cells are running text between pipes; a
pipe behind a backslash or between two backticks separates nothing. Blank text
in front of the first and behind the last pipe is no cell.
-/

set_option autoImplicit false

namespace TierLint

open Text Element

/-- The rows of a table. -/
structure Table where
  header : Line
  delimiter : Line
  body : List Line
  deriving DecidableEq

namespace Table

/-- The line begins with a pipe. -/
def isRow (l : Line) : Bool := l.indent ≤ 3 && startsBy (· == '|') (trimStart l.content)

/-- The line may stand below a header. -/
def isDelimiterRow (l : Line) : Bool :=
  let t := trim l.content
  isRow l && t.contains '-'
    && t.all (fun c => c == '|' || c == ':' || c == '-' || c == ' ' || c == '\t')

/-- Reads a table. -/
def read? : List Line → Option (Table × List Line)
  | header :: delimiter :: ls =>
    if isRow header && isDelimiterRow delimiter then
      some (⟨header, delimiter, ls.takeWhile isRow⟩, ls.dropWhile isRow)
    else
      none
  | _ => none

/-- Puts a character in front of the first piece. -/
def consPiece (c : Char) (pieces : List Text) : List Text :=
  (c :: pieces.headD []) :: pieces.tail

/-- The pieces between separating pipes. A backslash hides the next character,
and a backtick opens or closes code, unless it is hidden itself. -/
def pieces (inCode hidden : Bool) : Text → List Text
  | [] => [[]]
  | c :: rest =>
    if hidden then consPiece c (pieces inCode false rest)
    else if c == '\\' then consPiece c (pieces inCode true rest)
    else if c == '`' then consPiece c (pieces (!inCode) false rest)
    else if c == '|' && !inCode then [] :: pieces false false rest
    else consPiece c (pieces inCode false rest)

/-- The elements for a piece. Outermost pieces that are blank are spacing. -/
def pieceElements (outer : Bool) (t : Text) : List Element :=
  if outer && isBlank t then
    spacing t
  else
    let leading := t.takeWhile Unicode.isWhiteSpace
    let core := trim t
    [.node .tableCell <|
      spacing leading ++ Inline.elements core ++ spacing (t.drop (leading.length + core.length))]

/-- The elements for the pieces behind the first one, each with its pipe. -/
def furtherElements : List Text → List Element
  | [] => []
  | [piece] => .token .tablePipe ['|'] :: pieceElements true piece
  | piece :: rest => .token .tablePipe ['|'] :: pieceElements false piece ++ furtherElements rest

/-- The content of a header or body row. -/
def rowElements (content : Text) : List Element :=
  match pieces false false content with
  | [] => []
  | piece :: rest => pieceElements true piece ++ furtherElements rest

/-- The element for a header or body row. -/
def rowElement (l : Line) : Element := .node .tableRow (l.elementsWith (rowElements l.content))

/-- The element for the table. -/
def element (t : Table) : Element :=
  let separator := trimmed .tableSeparator t.delimiter.content
  .node .table <|
    rowElement t.header
      :: .node .tableSeparator (t.delimiter.elementsWith separator)
      :: t.body.map rowElement

theorem suffix_of_read? {l : Line} {ls rest : List Line} {t : Table}
    (h : read? (l :: ls) = some (t, rest)) : rest <:+ ls := by
  cases ls with
  | nil => simp [read?] at h
  | cons delimiter ls =>
    obtain ⟨-, -, rfl⟩ := by simpa [read?] using h
    exact (List.dropWhile_suffix _).trans (List.suffix_cons _ _)

end Table

end TierLint
