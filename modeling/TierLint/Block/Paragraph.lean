import TierLint.Block.Interruption

/-!
# Paragraphs and underlined headings

A paragraph runs until a blank line or a line that opens another block. If a
line of equal signs or dashes ends it first, its lines are a heading. The
indentation of each line is no part of the text.
-/

set_option autoImplicit false

namespace TierLint

open Text Element

/-- The lines of a paragraph, or of a heading with its underline. -/
structure Paragraph where
  lines : List Line
  underline? : Option Line
  deriving DecidableEq

namespace Paragraph

/-- The line may underline a heading. -/
def isUnderline (l : Line) : Bool :=
  l.indent ≤ 3 &&
    match trim l.content with
    | [] => false
    | c :: rest => (c == '=' || c == '-') && rest.all (· == c)

/-- The line goes on with a paragraph. -/
def continues (l : Line) : Bool := !l.isBlank && !isUnderline l && !l.interruptsParagraph

/-- Reads a paragraph or an underlined heading. -/
def read? : List Line → Option (Paragraph × List Line)
  | [] => none
  | l :: ls =>
    if l.isBlank then
      none
    else
      let lines := l :: ls.takeWhile continues
      match ls.dropWhile continues with
      | [] => some (⟨lines, none⟩, [])
      | next :: rest =>
        if isUnderline next then some (⟨lines, some next⟩, rest)
        else some (⟨lines, none⟩, next :: rest)

/-- A line of running text. -/
def lineElements (l : Line) : List Element :=
  l.elementsWith (spacing (indentation l.content) ++ Inline.elements (unindented l.content))

/-- The element for the paragraph or heading. -/
def element (p : Paragraph) : Element :=
  let content := p.lines.flatMap lineElements
  match p.underline? with
  | none => .node .paragraph content
  | some u =>
    .node .heading
      [.node .headingContent content,
       .node .headingUnderline (u.elementsWith (trimmed .headingUnderline u.content))]

theorem suffix_of_read? {l : Line} {ls rest : List Line} {p : Paragraph}
    (h : read? (l :: ls) = some (p, rest)) : rest <:+ ls := by
  have suffix := List.dropWhile_suffix (l := ls) continues
  cases eq : ls.dropWhile continues with
  | nil =>
    obtain ⟨-, -, rfl⟩ := by simpa [read?, eq] using h
    exact List.nil_suffix
  | cons next behind =>
    rw [eq] at suffix
    by_cases underlined : isUnderline next
    · obtain ⟨-, -, rfl⟩ := by simpa [read?, eq, underlined] using h
      exact (List.suffix_cons next behind).trans suffix
    · obtain ⟨-, -, rfl⟩ := by simpa [read?, eq, underlined] using h
      exact suffix

end Paragraph

end TierLint
