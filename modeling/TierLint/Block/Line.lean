import TierLint.Syntax.Element

/-!
# Lines

A document is a list of lines. Blocks are recognised on the lines' contents;
containers hand their lines on with a marker or indentation moved from the
content to the pending part, which the block that finally takes the line writes
in front of it. So the text of a line, pending part, content and ending, never
changes until it is written, except where an item writes its own marker.
-/

set_option autoImplicit false

namespace TierLint

/-- How a line ends. -/
inductive LineEnding where
  /-- The line is the last one and the text ends with it. -/
  | none
  /-- A line feed. -/
  | lf
  /-- A carriage return and a line feed. -/
  | crlf
  deriving DecidableEq

/-- The characters of a line ending. -/
def LineEnding.text : LineEnding → Text
  | .none => []
  | .lf => ['\n']
  | .crlf => ['\r', '\n']

/-- A line as seen by the block that may take it: what containers moved aside
and nobody wrote yet, the content, and the ending. -/
structure Line where
  pending : Text
  content : Text
  ending : LineEnding
  deriving DecidableEq

namespace Line

/-- The text of the line that is still to be written. -/
def text (l : Line) : Text := l.pending ++ l.content ++ l.ending.text

/-- The content is white space only. -/
def isBlank (l : Line) : Bool := Text.isBlank l.content

/-- Spaces and tabs at the start of the content. -/
def indent (l : Line) : Nat := Text.indent l.content

/-- The line with the next `n` characters of its content moved aside. -/
def advance (l : Line) (n : Nat) : Line :=
  { l with pending := l.pending ++ l.content.take n, content := l.content.drop n }

/-- The line with the next `n` characters of its content, and all that was
moved aside before, taken as written. -/
def consume (l : Line) (n : Nat) : Line :=
  { l with pending := [], content := l.content.drop n }

@[simp] theorem text_advance (l : Line) (n : Nat) : (l.advance n).text = l.text := by
  simp [text, advance]

/-- A character in front of a text joins its first line, or is a line of its
own in front of it if it is a line feed. A carriage return directly in front of
a bare line feed becomes part of the line's ending. -/
def consChar (c : Char) (lines : List Line) : List Line :=
  if c == '\n' then
    ⟨[], [], .lf⟩ :: lines
  else
    match lines with
    | [] => [⟨[], [c], .none⟩]
    | l :: rest =>
      if c == '\r' && l.content.isEmpty && l.ending == .lf then ⟨[], [], .crlf⟩ :: rest
      else { l with content := c :: l.content } :: rest

/-- The lines of a text. A text that ends with a line ending has no further line. -/
def ofText (t : Text) : List Line := t.foldr consChar []

/-- The text of consecutive lines. -/
def textOf (lines : List Line) : Text := lines.flatMap text

/-- What was moved aside, as runs of quote markers and of other characters. -/
def pendingElements (l : Line) : List Element :=
  (l.pending.splitBy fun a b => (a == '>') == (b == '>')).map fun run =>
    .token (if run.head? == some '>' then .blockQuoteMarker else .whitespace) run

/-- The line ending, if there is one. -/
def endingElements (l : Line) : List Element :=
  Element.tokenUnlessEmpty .newline l.ending.text

/-- The line with the given elements for its content. -/
def elementsWith (l : Line) (content : List Element) : List Element :=
  l.pendingElements ++ content ++ l.endingElements

/-- The line with its content as one token of kind `k`. -/
def elements (l : Line) (k : Kind) : List Element :=
  l.elementsWith (Element.tokenUnlessEmpty k l.content)

/-- The element for a blank line. -/
def blankElement (l : Line) : Element := .node .blankLine (l.elements .whitespace)

/-- Work that the lines can still give: their characters, and each line itself. -/
def weight : List Line → Nat
  | [] => 0
  | l :: lines => l.content.length + 1 + weight lines

@[simp] theorem weight_nil : weight [] = 0 := rfl

@[simp] theorem weight_cons (l : Line) (lines : List Line) :
    weight (l :: lines) = l.content.length + 1 + weight lines := rfl

@[simp] theorem weight_append (as bs : List Line) : weight (as ++ bs) = weight as + weight bs := by
  induction as with
  | nil => simp
  | cons l as ih => rw [List.cons_append, weight_cons, weight_cons, ih, ← Nat.add_assoc]

theorem weight_le_of_suffix {as bs : List Line} (h : as <:+ bs) : weight as ≤ weight bs := by
  obtain ⟨cs, rfl⟩ := h
  simp

theorem weight_map_le (f : Line → Line) (lines : List Line)
    (h : ∀ l ∈ lines, (f l).content.length ≤ l.content.length) :
    weight (lines.map f) ≤ weight lines := by
  induction lines with
  | nil => simp
  | cons l lines ih =>
    have first := h l (by simp)
    have others := ih fun k hk => h k (by simp [hk])
    simp
    omega

end Line

end TierLint
