import TierLint.Proofs.Document.Lossless
import TierLint.Proofs.Document.Total
import TierLint.Proofs.Offsets.Blocks

/-!
# Documents by offsets

A document is cut behind its line feeds, front matter is looked for between its first line and the
first line that closes it, and the remaining lines are read as blocks.

Reading by offsets gives what parsing gives (`parse_eq`): every cut but one lies between two
characters, every index is in range, no difference is negative, and every loop and recursion comes
to its end. What remains is the cut behind a heading's marker (`only_marker_fails`), which fails
exactly where parsing does. It cannot fail where all white space is spaces, tabs and line ends, and
inline text is read without any failure.
-/

set_option autoImplicit false

namespace TierLint.Offsets

open Text Element

/-- The pieces of the text, each up to a line feed and with it. -/
def pieces : Text → List Text
  | [] => []
  | c :: t =>
    if c == '\n' then [c] :: pieces t
    else
      match pieces t with
      | [] => [[c]]
      | piece :: others => (c :: piece) :: others

/-- The text in front of `s`, if the text ends with it. -/
def stripSuffix? (s t : Text) : Option Text :=
  if s.isSuffixOf t then some (t.take (t.length - s.length)) else none

/-- A piece with its line ending apart. -/
def rawLine (piece : Text) : RawLine :=
  match stripSuffix? ['\r', '\n'] piece with
  | some t => ⟨t, 0, 0, ['\r', '\n']⟩
  | none =>
    match stripSuffix? ['\n'] piece with
    | some t => ⟨t, 0, 0, ['\n']⟩
    | none => ⟨piece, 0, 0, []⟩

/-- The lines of a text. -/
def splitLines (t : Text) : List RawLine := (pieces t).map rawLine

/-- The line may stand above front matter. -/
def opensFrontMatter (l : RawLine) : Except Fault Bool := do
  .ok (trimEnd (← l.content) == ['-', '-', '-'])

/-- The line may stand below front matter. -/
def closesFrontMatter (l : RawLine) : Except Fault Bool := do
  let t := trimEnd (← l.content)
  .ok (t == ['-', '-', '-'] || t == ['.', '.', '.'])

/-- A line above or below front matter. -/
def delimiterElements (l : RawLine) : Except Fault (List Element) := do
  .ok ((← trimmedElements .frontMatterDelimiter (← l.content))
    ++ tokenUnlessEmpty .newline l.newline)

/-- Front matter. -/
def frontMatter (ls : List RawLine) : Found :=
  match ls with
  | [] => .ok none
  | opening :: _ => do
    if !(← opensFrontMatter opening) then .ok none
    else
      let close ← firstNot (fun l => do .ok !(← closesFrontMatter l)) ls 1
      match ls[close]? with
      | none => .ok none
      | some closing =>
        let front ← delimiterElements opening
        let content ← linesElements .frontMatterContent (← linesBetween ls 1 close)
        let back ← delimiterElements closing
        .ok (some (.node .frontMatter (front ++ content ++ back), close + 1))

/-- The syntax tree of a text. -/
def parse (t : Text) : Except Fault Element := do
  let ls := splitLines t
  let front ← frontMatter ls
  let rest ← linesBetween ls ((front.map (·.2)).getD 0) ls.length
  let es ← elementsOf rest
  .ok (.node .root [.node .document ((front.map (·.1)).toList ++ es)])

/-! ## Lines of a text -/

/-- A line of which nothing is written. -/
def Placed.unwritten (l : Line) : Placed := ⟨[], l⟩

theorem lines_unwritten (ls : List Line) : lines (ls.map Placed.unwritten) = ls := by
  rw [lines, List.map_map]
  exact List.map_id _

/-- The pieces of a text are its lines with their endings. -/
theorem pieces_eq (t : Text) :
    pieces t = (Line.ofText t).map fun l => l.content ++ l.ending.text := by
  induction t with
  | nil => rfl
  | cons c t ih =>
    have first : Line.ofText (c :: t) = Line.consChar c (Line.ofText t) := rfl
    rw [pieces, ih, first, Line.consChar.eq_def]
    split
    · -- a line feed is a piece, and the ending of an empty line
      rename_i lf
      rw [beq_iff_eq.1 lf]
      rfl
    · cases Line.ofText t with
      | nil => rfl
      | cons l ls =>
        simp only [List.map_cons]
        split
        · -- the piece begins with the line's ending
          rename_i isCr
          simp only [Bool.and_eq_true, beq_iff_eq, List.isEmpty_iff] at isCr
          obtain ⟨⟨rfl, content⟩, ending⟩ := isCr
          rw [List.map_cons, content, ending]
          rfl
        · rfl

theorem stripSuffix?_append (u s : Text) : stripSuffix? s (u ++ s) = some u := by
  rw [stripSuffix?, if_pos (List.isSuffixOf_iff_suffix.2 (List.suffix_append u s)),
    List.length_append, Nat.add_sub_cancel, List.take_left]

theorem stripSuffix?_eq_none {s t : Text} (h : ¬s <:+ t) : stripSuffix? s t = none :=
  if_neg fun yes => h (List.isSuffixOf_iff_suffix.1 yes)

/-- A line feed and what stands in front of it belong to the ending of a line. -/
theorem rawLine_eq {l : Line} (pending : l.pending = []) (lf : '\n' ∉ l.content)
    (cr : l.ending = .lf → l.content.getLast? ≠ some '\r') :
    rawLine (l.content ++ l.ending.text) = (Placed.unwritten l).raw := by
  have fresh : (Placed.unwritten l).raw = ⟨l.content, 0, 0, l.ending.text⟩ := by
    rw [Placed.raw, Placed.unwritten]
    simp only [pending, List.nil_append]
    rfl
  rw [fresh, rawLine]
  cases ending : l.ending with
  | none =>
    have noLf : ¬['\n'] <:+ l.content := fun h => lf (h.subset List.mem_cons_self)
    have noCrlf : ¬['\r', '\n'] <:+ l.content := fun h =>
      lf (h.subset (List.mem_cons_of_mem _ List.mem_cons_self))
    rw [LineEnding.text, List.append_nil, stripSuffix?_eq_none noCrlf, stripSuffix?_eq_none noLf]
  | lf =>
    -- a carriage return in front of the line feed would be the last character of the content
    have noCrlf : ¬['\r', '\n'] <:+ l.content ++ ['\n'] := by
      rintro ⟨u, h⟩
      have front : u ++ ['\r'] = l.content := by
        have same : (u ++ ['\r']) ++ ['\n'] = l.content ++ ['\n'] := by
          rw [← h, List.append_assoc]
          rfl
        exact List.append_cancel_right same
      refine cr ending ?_
      rw [← front, List.getLast?_concat]
    rw [LineEnding.text, stripSuffix?_eq_none noCrlf, stripSuffix?_append]
  | crlf => rw [LineEnding.text, stripSuffix?_append]

/-- So do the endings of all lines that a text is cut into. -/
theorem map_rawLine {ls : List Line} (cut : Line.Cut ls) :
    (ls.map fun l => l.content ++ l.ending.text).map rawLine = raws (ls.map Placed.unwritten) := by
  induction ls with
  | nil => rfl
  | cons l ls ih =>
    obtain ⟨pending, lf, cr, -, rest⟩ := cut
    rw [List.map_cons, List.map_cons, List.map_cons, raws_cons, rawLine_eq pending lf cr, ih rest]

theorem splitLines_eq (t : Text) :
    splitLines t = raws ((Line.ofText t).map Placed.unwritten) := by
  rw [splitLines, pieces_eq, map_rawLine (Line.cut_ofText t)]

/-! ## Front matter -/

variable {ps xs : List Placed} {x : Placed} {pos : Nat}

theorem opensFrontMatter_raw (x : Placed) :
    opensFrontMatter x.raw = .ok (FrontMatter.opens x.line) := by
  rw [opensFrontMatter, x.content_raw]
  rfl

theorem closesFrontMatter_raw (x : Placed) :
    closesFrontMatter x.raw = .ok (FrontMatter.closes x.line) := by
  rw [closesFrontMatter, x.content_raw]
  rfl

/-- Nothing is pending in the lines of a text, so a delimiter is written without a prefix. -/
theorem delimiterElements_raw {x : Placed} (pending : x.line.pending = []) :
    delimiterElements x.raw =
      .ok (x.line.elementsWith (trimmed .frontMatterDelimiter x.line.content)) := by
  have nothing : x.line.pendingElements = [] := by
    rw [Line.pendingElements, pending]
    rfl
  rw [delimiterElements, x.content_raw, ok_bind, trimmedElements_eq, ok_bind, Line.elementsWith,
    nothing, List.nil_append]
  rfl

/-- Front matter is found where it is read. -/
theorem frontMatter_eq (pending : ∀ p ∈ ps, p.line.pending = []) :
    frontMatter (raws ps) = .ok ((FrontMatter.read? (lines ps)).map fun (f, rest) =>
      (f.element, ps.length - rest.length)) := by
  cases ps with
  | nil => rfl
  | cons p ps =>
    have behind : (p :: ps).drop 1 = ps := rfl
    have search : firstNot (fun l => do .ok !(← closesFrontMatter l)) (raws (p :: ps)) 1 =
        .ok (1 + ((lines ps).takeWhile (!FrontMatter.closes ·)).length) :=
      firstNot_eq (fun x => by rw [closesFrontMatter_raw]; rfl) behind
    have split : (lines ps).takeWhile (!FrontMatter.closes ·) ++
        (lines ps).dropWhile (!FrontMatter.closes ·) = lines ps := List.takeWhile_append_dropWhile
    obtain ⟨zs, place, seen⟩ := exists_behind behind split
    have below : 1 ≤ (p :: ps).length := Nat.le_add_left ..
    obtain ⟨ys, range, content⟩ := exists_range behind below split
    have stop := stop_of_append behind below split
    rw [raws_cons, frontMatter, ← raws_cons, lines_cons, FrontMatter.read?, ← seen]
    simp only [opensFrontMatter_raw, ok_bind, search]
    cases zs with
    | nil =>
      -- no line closes it
      rw [getElem?_of_drop_nil place]
      cases FrontMatter.opens p.line <;> rfl
    | cons z zs =>
      have mem : z ∈ p :: ps := List.mem_of_mem_drop (place ▸ List.mem_cons_self)
      rw [getElem?_of_drop place]
      cases opens : FrontMatter.opens p.line with
      | false => rfl
      | true =>
        simp only [Bool.not_true, Bool.false_eq_true, if_false, if_true, ok_bind,
          delimiterElements_raw (pending p List.mem_cons_self),
          delimiterElements_raw (pending z mem), range, linesElements_eq, content, lines_cons,
          Option.map_some, stop_of_drop place, FrontMatter.element]

/-! ## Documents -/

/-- The lines behind the front matter are a range. -/
theorem linesBetween_suffix {rest : List Line} (suffix : rest <:+ lines ps) :
    ∃ zs, linesBetween (raws ps) (ps.length - rest.length) (raws ps).length = .ok (raws zs) ∧
      lines zs = rest := by
  obtain ⟨zs, place, seen⟩ := exists_suffix (List.drop_zero (l := ps)) suffix
  have fits := suffix.length_le
  rw [List.length_map] at fits
  have same := congrArg List.length seen
  rw [List.length_map] at same
  have length : (raws ps).length = ps.length - rest.length + zs.length := by
    rw [same, List.length_map]
    omega
  refine ⟨zs, ?_, seen⟩
  rw [length, linesBetween_eq place (Nat.sub_le ..) (Nat.le_refl _), List.take_length]

/-- Reading by offsets gives what parsing gives, and fails exactly where that does. -/
theorem parse_eq (t : Text) : parse t = outcome (Document.parse t) := by
  have pending : ∀ p ∈ (Line.ofText t).map Placed.unwritten, p.line.pending = [] := by
    intro p hp
    obtain ⟨l, hl, rfl⟩ := List.mem_map.1 hp
    exact Line.pending_of_cut (Line.cut_ofText t) l hl
  have front := frontMatter_eq pending
  -- from here on, only the lines as blocks see them matter
  have whole := lines_unwritten (Line.ofText t)
  have split := splitLines_eq t
  generalize (Line.ofText t).map Placed.unwritten = ps at front whole split
  rw [whole] at front
  rw [parse, split, Document.parse, Document.elements]
  simp only [front, ok_bind]
  cases read : FrontMatter.read? (Line.ofText t) with
  | none =>
    have all : linesBetween (raws ps) 0 (raws ps).length = .ok (raws ps) := by
      rw [linesBetween, if_pos ⟨Nat.zero_le _, Nat.le_refl _⟩, List.take_length, List.drop_zero]
    simp only [Option.map_none, Option.getD_none, all, ok_bind, elementsOf_eq, whole]
    cases Block.elementsOf (Line.ofText t) <;> rfl
  | some result =>
    obtain ⟨f, rest⟩ := result
    have suffix : rest <:+ lines ps := by
      rw [whole, ← FrontMatter.lines_of_read? read]
      exact List.suffix_append _ _
    obtain ⟨zs, range, seen⟩ := linesBetween_suffix suffix
    simp only [Option.map_some, Option.getD_some, range, ok_bind, elementsOf_eq, seen]
    cases Block.elementsOf rest <;> rfl

/-- No text leads to a fault other than that of a heading's marker, and a text with ordinary white
space leads to none. -/
theorem only_marker_fails (t : Text) :
    parse t = outcome (Document.parse t) ∧ (∀ f, parse t = .error f → f = .marker) ∧
      (t.isOrdinary = true → ∃ tree, parse t = .ok tree ∧ Document.parse t = .ok tree) ∧
      inline t = .ok (Inline.elements t) := by
  refine ⟨parse_eq t, ?_, ?_, inline_eq t⟩
  · intro f hf
    rw [parse_eq] at hf
    cases parsed : Document.parse t with
    | error e =>
      rw [parsed] at hf
      cases hf
      rfl
    | ok tree =>
      rw [parsed] at hf
      cases hf
  · intro ordinary
    obtain ⟨tree, parsed⟩ := Document.exists_parse ordinary
    refine ⟨tree, ?_, parsed⟩
    rw [parse_eq, parsed]
    rfl

/-- A link in a quoted item, with an escaped letter of two bytes in its label. -/
theorem only_marker_fails_quoted_link :
    Text.isOrdinary ['>', ' ', '-', '\t', '[', '\\', 'é', ']', '(', ')', '\r', '\n'] = true ∧
      ∃ tree, parse ['>', ' ', '-', '\t', '[', '\\', 'é', ']', '(', ')', '\r', '\n'] = .ok tree ∧
        Document.parse ['>', ' ', '-', '\t', '[', '\\', 'é', ']', '(', ')', '\r', '\n'] =
          .ok tree :=
  ⟨by decide, (only_marker_fails _).2.2.1 (by decide)⟩

/-- A no-break space in front of a heading counts as its indentation, but not where its marker is
cut out. -/
example : parse ['\u00a0', '#'] = .error .marker := by
  rw [parse_eq]
  decide +kernel

end TierLint.Offsets
