import TierLint.Block.Paragraph
import TierLint.Proofs.Offsets.Inline
import TierLint.Proofs.Offsets.Leaf
import TierLint.Proofs.Offsets.ListMarker

/-!
# Paragraphs by index and offset

The search for the end of a paragraph looks at each line for what ends it, and remembers whether
that was an underline. The recogniser never fails and returns the paragraph or heading that the
reader returns (`paragraph_eq`).
-/

set_option autoImplicit false

namespace TierLint.Offsets

open Text Element

variable {ps xs : List Placed} {x : Placed} {pos : Nat}

/-- The line may underline a heading. -/
def isUnderline (l : RawLine) : Except Fault Bool := do
  if 3 < (← l.indent) then .ok false
  else
    match trim (← l.content) with
    | [] => .ok false
    | c :: rest => .ok ((c == '=' || c == '-') && (c :: rest).all (· == c))

/-- One round of the search for the end of a paragraph. Found are the index of the line that ends
it, and whether that line is an underline. -/
def paragraphStep (ls : List RawLine) (_ : Unit) (i : Nat) :
    Except Fault (Next Unit (Nat × Bool)) := do
  let l ← lineAt ls i
  if ← l.isBlank then .ok (.stop (i, false))
  else if ← isUnderline l then .ok (.stop (i, true))
  else if ← interruptsParagraph l then .ok (.stop (i, false))
  else .ok (.go () (i + 1))

/-- A line of running text. -/
def paragraphLine (l : RawLine) : Except Fault (List Element) := do
  let content ← l.content
  let indent := leadingWhitespace content
  let front ← sliceTo content indent
  let body ← sliceFrom content indent
  l.elementsWith (spacing front ++ (← inline body))

/-- The lines of a paragraph. -/
def paragraphContent (ls : List RawLine) (start stop : Nat) : Except Fault (List Element) := do
  let taken ← linesBetween ls start stop
  .ok (← taken.mapM paragraphLine).flatten

/-- A paragraph, or a heading with an underline. -/
def paragraph (ls : List RawLine) (pos : Nat) : Found :=
  match ls[pos]? with
  | none => .ok none
  | some l => do
    if ← l.isBlank then .ok none
    else
      let (stop, underlined) ←
        scan (paragraphStep ls) (fun _ i => .ok (i, false)) ls.length () (pos + 1)
      let content ← paragraphContent ls pos stop
      if underlined then
        let underline ← (← lineAt ls stop).trimmed .headingUnderline
        .ok (some (.node .heading
          [.node .headingContent content, .node .headingUnderline underline], stop + 1))
      else .ok (some (.node .paragraph content, stop))

theorem isUnderline_raw (x : Placed) : isUnderline x.raw = .ok (Paragraph.isUnderline x.line) := by
  rw [isUnderline, x.indent_raw, ok_bind, Paragraph.isUnderline]
  by_cases deep : 3 < x.line.indent
  · rw [if_pos deep, decide_eq_false (Nat.not_le.2 deep)]
    rfl
  rw [if_neg deep, decide_eq_true (Nat.not_lt.1 deep), x.content_raw, ok_bind]
  cases trim x.line.content with
  | nil => rfl
  | cons c rest => simp

/-- A blank line underlines nothing. -/
theorem isUnderline_of_isBlank {l : Line} (h : l.isBlank = true) :
    Paragraph.isUnderline l = false := by
  have none : trim l.content = [] := by
    rw [trim, trimStart_of_isBlank h]
    rfl
  rw [Paragraph.isUnderline, none, Bool.and_false]

/-- What one round does with a line. -/
theorem paragraphStep_raw (hx : ps.drop pos = x :: xs) :
    paragraphStep (raws ps) () pos =
      if Paragraph.continues x.line then .ok (.go () (pos + 1))
      else .ok (.stop (pos, Paragraph.isUnderline x.line)) := by
  rw [paragraphStep, lineAt_of_drop hx, ok_bind, x.isBlank_raw, ok_bind, isUnderline_raw, ok_bind,
    interruptsParagraph_raw, ok_bind, Paragraph.continues]
  cases blank : x.line.isBlank with
  | true => rw [isUnderline_of_isBlank blank]; rfl
  | false =>
    cases Paragraph.isUnderline x.line <;> cases x.line.interruptsParagraph <;> rfl

/-- The search ends behind the lines that go on with the paragraph. -/
theorem scan_paragraph (hx : ps.drop pos = xs) :
    scan (paragraphStep (raws ps)) (fun _ i => .ok (i, false)) (raws ps).length () pos =
      .ok (pos + ((lines xs).takeWhile Paragraph.continues).length,
        ((lines xs).dropWhile Paragraph.continues).head?.any Paragraph.isUnderline) := by
  induction xs generalizing pos with
  | nil =>
    rw [scan_end (length_raws_le hx)]
    rfl
  | cons x xs ih =>
    have step := paragraphStep_raw hx
    rw [lines_cons]
    by_cases more : Paragraph.continues x.line = true
    · rw [if_pos more] at step
      rw [scan_go (lt_length_raws hx) step (Nat.lt_succ_self _), ih (drop_succ_of_drop hx),
        List.takeWhile_cons_of_pos more, List.dropWhile_cons_of_pos more, List.length_cons,
        Nat.add_assoc, Nat.add_comm 1]
    · rw [if_neg more] at step
      rw [scan_stop (lt_length_raws hx) step, List.takeWhile_cons_of_neg more,
        List.dropWhile_cons_of_neg more]
      rfl

/-- The elements of a line of running text are those of the reader. -/
theorem paragraphLine_raw (x : Placed) :
    paragraphLine x.raw = .ok (Paragraph.lineElements x.line) := by
  simp only [paragraphLine, Paragraph.lineElements, x.content_raw, leadingWhitespace_eq,
    slice_indentation, slice_unindented, inline_eq, ok_bind, x.elementsWith_raw]

/-- The recogniser takes the paragraph or heading that the reader takes. -/
theorem paragraph_eq (hx : ps.drop pos = xs) :
    paragraph (raws ps) pos = .ok ((Paragraph.read? (lines xs)).map fun (p, rest) =>
      (p.element, ps.length - rest.length)) := by
  rw [paragraph]
  cases xs with
  | nil =>
    rw [getElem?_of_drop_nil hx]
    rfl
  | cons x xs =>
    have below := Nat.le_of_lt (lt_length_of_drop hx)
    rw [getElem?_of_drop hx, lines_cons, Paragraph.read?]
    simp only [x.isBlank_raw, ok_bind]
    by_cases blank : x.line.isBlank = true
    · rw [if_pos blank, if_pos blank]
      rfl
    rw [if_neg blank, if_neg blank, scan_paragraph (drop_succ_of_drop hx)]
    have split : (x.line :: (lines xs).takeWhile Paragraph.continues) ++
        (lines xs).dropWhile Paragraph.continues = lines (x :: xs) := by
      rw [List.cons_append, List.takeWhile_append_dropWhile]
      rfl
    simp only [ok_bind]
    generalize (lines xs).takeWhile Paragraph.continues = taken at split ⊢
    generalize (lines xs).dropWhile Paragraph.continues = behind at split ⊢
    obtain ⟨ys, range, same⟩ := exists_range hx below split
    obtain ⟨zs, place, seen⟩ := exists_behind hx split
    have stop := stop_of_append hx below split
    rw [List.length_cons, Nat.add_comm taken.length, ← Nat.add_assoc] at range place stop
    have content : paragraphContent (raws ps) pos (pos + 1 + taken.length) =
        .ok ((x.line :: taken).flatMap Paragraph.lineElements) := by
      rw [paragraphContent, range, ok_bind, mapM_raws paragraphLine_raw, ok_bind, ← same,
        List.flatMap_map]
      rfl
    rw [content, ok_bind]
    subst seen
    cases zs with
    | nil =>
      -- the lines end with the paragraph
      rw [lines_nil] at stop ⊢
      simp only [List.head?_nil, Option.any_none, Option.map_some, Paragraph.element, stop,
        Bool.false_eq_true, if_false]
    | cons z zs =>
      rw [lines_cons] at stop ⊢
      by_cases underlined : Paragraph.isUnderline z.line = true
      · simp only [List.head?_cons, Option.any_some, underlined, if_true, Option.map_some,
          Paragraph.element, lineAt_of_drop place, ok_bind, z.trimmed_raw, stop_of_drop place]
      · simp only [List.head?_cons, Option.any_some, underlined, Bool.false_eq_true, if_false,
          Option.map_some, Paragraph.element, stop]

end TierLint.Offsets
