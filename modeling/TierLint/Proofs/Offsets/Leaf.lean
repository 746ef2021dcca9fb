import TierLint.Block.Basic
import TierLint.Proofs.Offsets.Lines
import TierLint.Proofs.Offsets.Opening

/-!
# Blocks by index and offset

A recogniser gets the lines of a container and the index of a line. If a block begins there it
returns the element of the block and the index behind it. The lines that the block takes are a range
of the lines, as long as what the reader takes of the lines behind the index (`exists_range`,
`exists_behind`).

The recognisers for blocks of whole lines, blank lines, thematic breaks, raw HTML and indented code,
never fail and return what the readers return (`blankLine_eq`, `thematicBreak_eq`, `htmlBlock_eq`,
`indentedCode_eq`).
-/

set_option autoImplicit false

namespace TierLint.Offsets

open Text Element

variable {ps xs : List Placed} {x : Placed} {pos : Nat}

/-- A block that begins at an index: its element, and the index behind it. -/
abbrev Found := Except Fault (Option (Element × Nat))

/-- What the reader's result is here: where it fails, a marker cannot be cut out. -/
def outcome {α : Type} (e : Except ParseError α) : Except Fault α := e.mapError fun _ => .marker

@[simp] theorem outcome_ok {α : Type} (a : α) : outcome (.ok a) = .ok a := rfl

/-- The index behind a block, counted from the end of the lines. -/
theorem stop_of_append (hx : ps.drop pos = xs) (hp : pos ≤ ps.length) {taken rest : List Line}
    (h : taken ++ rest = lines xs) : ps.length - rest.length = pos + taken.length := by
  have whole := congrArg List.length h
  rw [List.length_append, List.length_map, ← hx, List.length_drop] at whole
  omega

theorem stop_of_drop (hx : ps.drop pos = x :: xs) : ps.length - (lines xs).length = pos + 1 :=
  stop_of_append hx (Nat.le_of_lt (lt_length_of_drop hx))
    (rfl : [x.line] ++ lines xs = lines (x :: xs))

/-- The lines of a block are a range that lies in the sequence. -/
theorem exists_range (hx : ps.drop pos = xs) (hp : pos ≤ ps.length) {taken rest : List Line}
    (h : taken ++ rest = lines xs) :
    ∃ ys, linesBetween (raws ps) pos (pos + taken.length) = .ok (raws ys) ∧ lines ys = taken := by
  have fits : taken.length ≤ xs.length := by
    have whole := congrArg List.length h
    rw [List.length_append, List.length_map] at whole
    omega
  refine ⟨xs.take taken.length, linesBetween_eq hx hp fits, ?_⟩
  rw [lines, List.map_take, ← lines, ← h, List.take_left]

/-- The lines behind a block lie behind its range. -/
theorem exists_behind (hx : ps.drop pos = xs) {taken rest : List Line}
    (h : taken ++ rest = lines xs) :
    ∃ zs, ps.drop (pos + taken.length) = zs ∧ lines zs = rest := by
  refine ⟨xs.drop taken.length, ?_, ?_⟩
  · rw [← List.drop_drop, hx]
  · rw [lines, List.map_drop, ← lines, ← h, List.drop_left]

/-! ## Single lines -/

/-- A blank line. -/
def blankLine (ls : List RawLine) (pos : Nat) : Found :=
  match ls[pos]? with
  | none => .ok none
  | some l => do
    if ← l.isBlank then .ok (some (.node .blankLine (← l.elements .whitespace), pos + 1))
    else .ok none

/-- A thematic break. -/
def thematicBreak (ls : List RawLine) (pos : Nat) : Found :=
  match ls[pos]? with
  | none => .ok none
  | some l => do
    if ← isThematicBreak (← l.content) then
      .ok (some (.node .thematicBreak (← l.trimmed .horizontalRule), pos + 1))
    else .ok none

/-- The recogniser takes the blank line that the reader takes. -/
theorem blankLine_eq (hx : ps.drop pos = xs) :
    blankLine (raws ps) pos = .ok ((Block.readBlank? (lines xs)).map fun (l, rest) =>
      (l.blankElement, ps.length - rest.length)) := by
  rw [blankLine]
  cases xs with
  | nil =>
    rw [getElem?_of_drop_nil hx]
    rfl
  | cons x xs =>
    rw [getElem?_of_drop hx, lines_cons, Block.readBlank?]
    simp only [x.isBlank_raw, ok_bind, x.elements_raw]
    split
    · simp only [Option.map_some, stop_of_drop hx, Line.blankElement]
    · rfl

/-- The recogniser takes the thematic break that the reader takes. -/
theorem thematicBreak_eq (hx : ps.drop pos = xs) :
    thematicBreak (raws ps) pos = .ok ((ThematicBreak.read? (lines xs)).map fun (l, rest) =>
      (ThematicBreak.element l, ps.length - rest.length)) := by
  rw [thematicBreak]
  cases xs with
  | nil =>
    rw [getElem?_of_drop_nil hx]
    rfl
  | cons x xs =>
    rw [getElem?_of_drop hx, lines_cons, ThematicBreak.read?]
    simp only [x.content_raw, ok_bind, isThematicBreak_eq, x.trimmed_raw]
    split
    · simp only [Option.map_some, stop_of_drop hx, ThematicBreak.element]
    · rfl

/-! ## Raw HTML and indented code -/

/-- Raw HTML up to the next blank line. -/
def htmlBlock (ls : List RawLine) (pos : Nat) : Found :=
  match ls[pos]? with
  | none => .ok none
  | some l => do
    if 3 < (← l.indent) then .ok none
    else if !(← startsHtml (trimStart (← l.content))) then .ok none
    else
      let stop ← firstNot (fun l => do .ok !(← l.isBlank)) ls pos
      let taken ← linesBetween ls pos stop
      .ok (some (.node .htmlBlock (← linesElements .htmlContent taken), stop))

/-- Indented code. -/
def indentedCode (ls : List RawLine) (pos : Nat) : Found :=
  match ls[pos]? with
  | none => .ok none
  | some l => do
    if ← l.isBlank then .ok none
    else if (← l.indent) < 4 then .ok none
    else
      let stop ← lastWithin (fun _ l => do .ok (4 ≤ (← l.indent))) false ls (pos + 1)
      let taken ← linesBetween ls pos stop
      .ok (some (.node .codeBlock [.node .codeContent (← linesElements .text taken)], stop))

theorem trimStart_of_isBlank {t : Text} (h : isBlank t = true) : trimStart t = [] :=
  List.dropWhile_eq_nil_iff.2 (List.all_eq_true.1 h)

theorem not_isBlank_of_startsBlock {l : Line} (h : Html.startsBlock (trimStart l.content) = true) :
    l.isBlank = false := by
  refine Bool.eq_false_iff.2 fun blank => ?_
  rw [trimStart_of_isBlank blank] at h
  cases h

/-- The recogniser takes the raw HTML that the reader takes. -/
theorem htmlBlock_eq (hx : ps.drop pos = xs) :
    htmlBlock (raws ps) pos = .ok ((Html.read? (lines xs)).map fun (taken, rest) =>
      (Html.element taken, ps.length - rest.length)) := by
  rw [htmlBlock]
  cases xs with
  | nil =>
    rw [getElem?_of_drop_nil hx]
    rfl
  | cons x xs =>
    have below := Nat.le_of_lt (lt_length_of_drop hx)
    rw [getElem?_of_drop hx, lines_cons, Html.read?]
    simp only [x.content_raw, ok_bind, x.indent_raw, startsHtml_eq]
    by_cases deep : 3 < x.line.indent
    · rw [if_pos deep, decide_eq_false (Nat.not_le.2 deep)]
      rfl
    rw [if_neg deep, decide_eq_true (Nat.not_lt.1 deep)]
    cases starts : Html.startsBlock (trimStart x.line.content) with
    | false => rfl
    | true =>
      -- The search begins at the line itself, which is not blank, and so takes it.
      have nonblank : (!x.line.isBlank) = true := by
        rw [not_isBlank_of_startsBlock starts]
        rfl
      have taken := List.takeWhile_cons_of_pos (p := (!Line.isBlank ·)) (l := lines xs) nonblank
      have behind := List.dropWhile_cons_of_pos (p := (!Line.isBlank ·)) (l := lines xs) nonblank
      have split : (x.line :: lines xs).takeWhile (!·.isBlank) ++
          (x.line :: lines xs).dropWhile (!·.isBlank) = lines (x :: xs) :=
        List.takeWhile_append_dropWhile
      have search : firstNot (fun l => do .ok !(← l.isBlank)) (raws ps) pos =
          .ok (pos + ((x.line :: lines xs).takeWhile (!·.isBlank)).length) :=
        firstNot_eq (fun x => by rw [x.isBlank_raw]; rfl) hx
      obtain ⟨ys, range, same⟩ := exists_range hx below split
      have stop := stop_of_append hx below split
      rw [taken] at range same search stop
      rw [behind] at stop
      simp only [Bool.not_true, Bool.and_self, if_true, Bool.false_eq_true, if_false]
      rw [search, ok_bind, range, ok_bind, linesElements_eq, ok_bind, same]
      simp only [Option.map_some, stop, Html.element]

/-- The recogniser takes the indented code that the reader takes. -/
theorem indentedCode_eq (hx : ps.drop pos = xs) :
    indentedCode (raws ps) pos = .ok ((IndentedCode.read? (lines xs)).map fun (taken, rest) =>
      (IndentedCode.element taken, ps.length - rest.length)) := by
  rw [indentedCode]
  cases xs with
  | nil =>
    rw [getElem?_of_drop_nil hx]
    rfl
  | cons x xs =>
    have below := Nat.le_of_lt (lt_length_of_drop hx)
    rw [getElem?_of_drop hx, lines_cons, IndentedCode.read?]
    simp only [x.isBlank_raw, ok_bind, x.indent_raw]
    by_cases blank : x.line.isBlank = true
    · rw [if_pos blank, blank]
      rfl
    rw [if_neg blank, Bool.eq_false_iff.2 blank, IndentedCode.isCode]
    by_cases shallow : x.line.indent < 4
    · rw [if_pos shallow, decide_eq_false (Nat.not_le.2 shallow)]
      rfl
    rw [if_neg shallow, decide_eq_true (Nat.not_lt.1 shallow)]
    -- The search begins behind the line, and what it reaches lies in the lines.
    have search : lastWithin (fun _ l => do .ok (4 ≤ (← l.indent))) false (raws ps) (pos + 1) =
        .ok (pos + 1 + Line.reach (fun _ => IndentedCode.isCode) false (lines xs)) :=
      lastWithin_eq (fun _ x => by rw [x.indent_raw]; rfl) (drop_succ_of_drop hx) false
    generalize hn : Line.reach (fun _ => IndentedCode.isCode) false (lines xs) = n at search
    have fits : ((lines xs).take n).length = n := by
      rw [List.length_take, ← hn, Nat.min_eq_left (Line.reach_le_length ..)]
    have split : (x.line :: (lines xs).take n) ++ (lines xs).drop n = lines (x :: xs) := by
      rw [List.cons_append, List.take_append_drop]
      rfl
    have stop := stop_of_append hx below split
    obtain ⟨ys, range, same⟩ := exists_range hx below split
    rw [List.length_cons, fits, Nat.add_comm n, ← Nat.add_assoc] at stop range
    rw [search, ok_bind, range, ok_bind, linesElements_eq, ok_bind, same]
    simp only [Bool.not_false, Bool.and_self, if_true, Option.map_some, IndentedCode.element]
    rw [stop]

end TierLint.Offsets
