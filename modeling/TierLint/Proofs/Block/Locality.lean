import TierLint.Proofs.Block.Lossless
import TierLint.Proofs.Block.Opener
import TierLint.Proofs.Block.Sequence
import TierLint.Proofs.Text.Trim

/-!
# Blocks do not see past a blank line

Let the lines `before` end with a blank line, and let the line behind them be one that neither goes
on with a list nor with indented code: not blank, not indented, no list marker. Then the blocks of
all lines are those of `before` and those of the lines behind (`ofLines_append`), and so are the
elements (`elementsOf_append`). The one exception is a fence that nothing closes in `before`.

Each recogniser looks ahead in its own way. `Local` says what all of them have in common: on more
lines a recogniser finds the same block and leaves the further lines behind it.
-/

set_option autoImplicit false

namespace TierLint

/-- The last line is blank. -/
def EndsBlank (lines : List Line) : Prop :=
  ∃ init last, lines = init ++ [last] ∧ last.isBlank = true

/-- The first line is neither blank nor indented, and carries no list marker. -/
def StartsAfresh (lines : List Line) : Prop :=
  ∃ l ls, lines = l :: ls ∧ l.isBlank = false ∧ l.indent = 0 ∧ ListMarker.read? l.content = none

namespace EndsBlank

theorem ne_nil {lines : List Line} (h : EndsBlank lines) : lines ≠ [] := by
  obtain ⟨init, last, rfl, -⟩ := h
  simp

/-- A tail of the lines is empty or ends with the same line. -/
theorem of_suffix {lines rest : List Line} (h : EndsBlank lines) (suffix : rest <:+ lines)
    (hne : rest ≠ []) : EndsBlank rest := by
  obtain ⟨init, last, rfl, blank⟩ := h
  obtain ⟨front, eq⟩ := suffix
  obtain ⟨init', last', rfl⟩ := List.eq_nil_or_concat rest |>.resolve_left hne
  rw [List.concat_eq_append, ← List.append_assoc] at eq
  obtain ⟨-, same⟩ := List.append_inj' eq rfl
  obtain rfl : last' = last := by simpa using same
  exact ⟨init', last', List.concat_eq_append, blank⟩

theorem tail {l : Line} {ls : List Line} (h : EndsBlank (l :: ls)) (hl : l.isBlank = false) :
    EndsBlank ls := by
  refine h.of_suffix (List.suffix_cons l ls) ?_
  rintro rfl
  obtain ⟨init, last, eq, blank⟩ := h
  obtain ⟨-, rfl⟩ : init = [] ∧ last = l := by
    cases init with
    | nil => simpa using eq.symm
    | cons k init => simp at eq
  rw [hl] at blank
  exact Bool.false_ne_true blank

end EndsBlank

/-! ## Looking ahead -/

/-- What ends a run inside the lines ends it in front of further lines as well. -/
theorem takeWhile_append_of_dropWhile {p : Line → Bool} {ls rest : List Line} {l : Line}
    (h : ls.dropWhile p = l :: rest) (behind : List Line) :
    (ls ++ behind).takeWhile p = ls.takeWhile p := by
  rw [List.takeWhile_append, if_neg]
  intro all
  have whole := congrArg List.length (List.takeWhile_append_dropWhile (p := p) (l := ls))
  rw [List.length_append, all, h, List.length_cons] at whole
  omega

theorem reach_cons_of_isBlank (accepts : Bool → Line → Bool) (afterBlank : Bool) {l : Line}
    (hl : l.isBlank = true) (ls : List Line) :
    Line.reach accepts afterBlank (l :: ls) =
      if Line.reach accepts true ls = 0 then 0 else Line.reach accepts true ls + 1 := by
  rw [Line.reach, if_pos hl]
  cases Line.reach accepts true ls <;> rfl

section LookAhead

variable {before : List Line} (hb : EndsBlank before)

include hb

/-- Lines that are never blank are looked for in front of the blank line. -/
theorem span_append_of_endsBlank (behind : List Line) {p : Line → Bool}
    (hp : ∀ l, p l = true → l.isBlank = false) :
    (before ++ behind).takeWhile p = before.takeWhile p ∧
      (before ++ behind).dropWhile p = before.dropWhile p ++ behind := by
  obtain ⟨init, last, rfl, blank⟩ := hb
  have no : p last = false := Bool.eq_false_iff.2 fun yes => by simp [hp last yes] at blank
  constructor
  · simp [List.takeWhile_append, no]
  · by_cases all : (init.dropWhile p).isEmpty = true
    · simp [List.dropWhile_append, all, no]
    · simp [List.dropWhile_append, all]

/-- Lines across blank lines are looked for in front of a line that is not accepted behind one. -/
theorem reach_append_of_endsBlank {accepts : Bool → Line → Bool} {l : Line} {ls : List Line}
    (hl : l.isBlank = false) (no : accepts true l = false) (afterBlank : Bool) :
    Line.reach accepts afterBlank (before ++ l :: ls) = Line.reach accepts afterBlank before := by
  have stops : Line.reach accepts true (l :: ls) = 0 := by simp [Line.reach, hl, no]
  induction before generalizing afterBlank with
  | nil => exact absurd rfl hb.ne_nil
  | cons k before ih =>
    cases before with
    | nil =>
      -- the blank line, behind which the search ends at `l` or at the end
      obtain ⟨init, last, eq, blank⟩ := hb
      obtain ⟨-, rfl⟩ : init = [] ∧ last = k := by
        cases init with
        | nil => simpa using eq.symm
        | cons j init => simp at eq
      rw [List.singleton_append, reach_cons_of_isBlank accepts afterBlank blank, stops,
        reach_cons_of_isBlank accepts afterBlank blank]
      rfl
    | cons j before =>
      have hb' : EndsBlank (j :: before) := hb.of_suffix (List.suffix_cons ..) (by simp)
      rw [List.cons_append, Line.reach, Line.reach, ih hb', ih hb']

end LookAhead

/-! ## Lines that are not blank -/

theorem isBlank_eq_false_of_mem {t : Text} {c : Char} (mem : c ∈ t)
    (hc : Unicode.isWhiteSpace c = false) : Text.isBlank t = false := by
  rw [Text.isBlank, List.all_eq_false]
  exact ⟨c, mem, by simp [hc]⟩

/-- Text that has something left behind its white space is not blank. -/
theorem isBlank_eq_false_of_trimStart {t : Text} (h : Text.trimStart t ≠ []) :
    Text.isBlank t = false := by
  rw [Text.isBlank, List.all_eq_false]
  by_contra none
  exact h (List.dropWhile_eq_nil_iff.2 fun c hc => by_contra fun no => none ⟨c, hc, no⟩)

theorem ne_nil_of_startsBy {p : Char → Bool} {t : Text} (h : Text.startsBy p t = true) :
    t ≠ [] := by
  rintro rfl
  simp [Text.startsBy] at h

theorem isBlank_eq_false_of_unindented {t rest : Text} {c : Char}
    (h : Text.unindented t = c :: rest) (hc : Unicode.isWhiteSpace c = false) :
    Text.isBlank t = false := by
  have mem : c ∈ Text.unindented t := by simp [h]
  exact isBlank_eq_false_of_mem ((List.dropWhile_suffix _).subset mem) hc

theorem Quote.isBlank_eq_false {l : Line} (h : Quote.isQuoted l = true) : l.isBlank = false := by
  obtain ⟨-, hs⟩ : l.indent ≤ 3 ∧ Text.startsBy (· == '>') (Text.unindented l.content) = true := by
    simpa [Quote.isQuoted] using h
  cases hu : Text.unindented l.content with
  | nil => exact absurd hu (ne_nil_of_startsBy hs)
  | cons c rest =>
    obtain rfl : c = '>' := by simpa [hu, Text.startsBy] using hs
    exact isBlank_eq_false_of_unindented hu (by decide)

theorem Table.isBlank_eq_false {l : Line} (h : Table.isRow l = true) : l.isBlank = false := by
  obtain ⟨-, hs⟩ : l.indent ≤ 3 ∧ Text.startsBy (· == '|') (Text.trimStart l.content) = true := by
    simpa [Table.isRow] using h
  exact isBlank_eq_false_of_trimStart (ne_nil_of_startsBy hs)

/-! ## Recognisers -/

/-- On further lines that begin afresh behind a blank line, the reader finds what it finds without
them. -/
def Local {α : Type} (read? : List Line → Option (α × List Line)) : Prop :=
  ∀ (l : Line) {ls behind : List Line}, EndsBlank ls → StartsAfresh behind →
    read? (l :: (ls ++ behind)) = (read? (l :: ls)).map fun (x, rest) => (x, rest ++ behind)

theorem Local.map {α β : Type} {read? : List Line → Option (α × List Line)} (h : Local read?)
    (f : α → β) : Local fun lines => (read? lines).map fun (x, rest) => (f x, rest) := by
  intro l ls behind hls hbehind
  simp only [h l hls hbehind, Option.map_map]
  rfl

/-! Blank lines, headings and thematic breaks are read from one line. The others read on, each up to
a line of its own kind. -/

theorem Block.local_readBlank? : Local Block.readBlank? := by
  intro l ls behind _ _
  by_cases hl : l.isBlank = true <;> simp [Block.readBlank?, hl]

theorem AtxHeading.local_read? : Local AtxHeading.read? := by
  intro l ls behind _ _
  simp only [AtxHeading.read?, Option.map_map]
  rfl

theorem ThematicBreak.local_read? : Local ThematicBreak.read? := by
  intro l ls behind _ _
  by_cases hl : ThematicBreak.isBreak l.content = true <;> simp [ThematicBreak.read?, hl]

theorem Quote.local_read? : Local Quote.read? := by
  intro l ls behind hls _
  obtain ⟨taken, dropped⟩ := span_append_of_endsBlank hls behind
    (p := Quote.isQuoted) fun _ => Quote.isBlank_eq_false
  by_cases hl : Quote.isQuoted l = true <;> simp [Quote.read?, hl, taken, dropped]

theorem Html.local_read? : Local Html.read? := by
  intro l ls behind hls _
  obtain ⟨taken, dropped⟩ := span_append_of_endsBlank hls behind
    (p := (!·.isBlank)) fun _ h => by simpa using h
  rw [Html.read?, Html.read?, taken, dropped]
  split <;> rfl

theorem Table.local_read? : Local Table.read? := by
  intro header ls behind hls _
  cases ls with
  | nil => exact absurd rfl hls.ne_nil
  | cons delimiter ls =>
    by_cases hd : Table.isDelimiterRow delimiter = true
    · have row : Table.isRow delimiter = true := by
        simp only [Table.isDelimiterRow, Bool.and_eq_true] at hd
        exact hd.1.1
      have hls' := hls.tail (Table.isBlank_eq_false row)
      obtain ⟨taken, dropped⟩ := span_append_of_endsBlank hls' behind
        (p := Table.isRow) fun _ => Table.isBlank_eq_false
      rw [List.cons_append, Table.read?, Table.read?, taken, dropped]
      split <;> rfl
    · simp [Table.read?, hd]

theorem IndentedCode.local_read? : Local IndentedCode.read? := by
  rintro l ls _ hls ⟨m, ms, rfl, hm, indent, -⟩
  have refused : IndentedCode.isCode m = false := by simp [IndentedCode.isCode, indent]
  have reach : Line.reach (fun _ => IndentedCode.isCode) false (ls ++ m :: ms) =
      Line.reach (fun _ => IndentedCode.isCode) false ls :=
    reach_append_of_endsBlank hls hm refused false
  have within := Line.reach_le_length (fun _ => IndentedCode.isCode) false ls
  rw [IndentedCode.read?, IndentedCode.read?]
  split
  · simp only [reach, List.take_append_of_le_length within, List.drop_append_of_le_length within,
      Option.map_some]
  · rfl

theorem Paragraph.isBlank_eq_false {l : Line} (h : Paragraph.continues l = true) :
    l.isBlank = false := by
  simp only [Paragraph.continues, Bool.and_eq_true, Bool.not_eq_true'] at h
  exact h.1.1

theorem Paragraph.local_read? : Local Paragraph.read? := by
  intro l ls behind hls _
  obtain ⟨taken, dropped⟩ := span_append_of_endsBlank hls behind
    (p := Paragraph.continues) fun _ => Paragraph.isBlank_eq_false
  rw [Paragraph.read?, Paragraph.read?, taken, dropped]
  cases hd : ls.dropWhile Paragraph.continues with
  | nil =>
    -- not so: the blank line ends the paragraph
    obtain ⟨init, last, rfl, blank⟩ := hls
    have goes := List.dropWhile_eq_nil_iff.1 hd last (by simp)
    simp [Paragraph.isBlank_eq_false goes] at blank
  | cons next rest =>
    by_cases hl : l.isBlank = true
    · simp [hl]
    · by_cases hu : Paragraph.isUnderline next = true <;> simp [hl, hu]

/-! ## Lists -/

namespace ListMarker

/-- A marker begins with a bullet, a digit or a delimiter. -/
theorem exists_cons_of_read? {t : Text} {m : ListMarker} (h : read? t = some m) :
    ∃ c rest, Text.unindented t = c :: rest ∧
      (c ∈ ['-', '*', '+', '.', ')'] ∨ c.isDigit = true) := by
  obtain ⟨behind, symbol, -, -⟩ := read?_cases h
  obtain ⟨whole, ⟨c, bullet, -, -, text⟩ | ⟨digits, d, decimal, delimiter, -, -, text⟩⟩ :=
    symbol?_cases symbol
  · refine ⟨c, behind, by rw [← whole, text]; rfl, .inl ?_⟩
    rcases bullet with rfl | rfl | rfl <;> decide
  · cases digits with
    | nil =>
      refine ⟨d, behind, by rw [← whole, text]; rfl, .inl ?_⟩
      rcases delimiter with rfl | rfl <;> decide
    | cons c digits =>
      refine ⟨c, digits ++ d :: behind, ?_, .inr (decimal c List.mem_cons_self)⟩
      rw [← whole, text]
      simp

/-- No bullet, digit or delimiter is white space or begins a fence, a heading or a quote. -/
theorem ne_of_mem_or_isDigit {c : Char} (h : c ∈ ['-', '*', '+', '.', ')'] ∨ c.isDigit = true) :
    Unicode.isWhiteSpace c = false ∧ c ≠ '`' ∧ c ≠ '~' ∧ c ≠ '#' ∧ c ≠ '>' := by
  rcases h with mem | digit
  · simp only [List.mem_cons, List.not_mem_nil, or_false] at mem
    rcases mem with rfl | rfl | rfl | rfl | rfl <;> decide
  · have ne {d : Char} (hd : d.isDigit = false) : c ≠ d := by
      rintro rfl
      rw [digit] at hd
      cases hd
    exact ⟨Text.isWhiteSpace_of_isDigit digit, ne rfl, ne rfl, ne rfl, ne rfl⟩

/-- A line with a list marker is not blank. -/
theorem isBlank_eq_false {t : Text} {m : ListMarker} (h : read? t = some m) :
    Text.isBlank t = false := by
  obtain ⟨c, rest, eq, first⟩ := exists_cons_of_read? h
  exact isBlank_eq_false_of_unindented eq (ne_of_mem_or_isDigit first).1

end ListMarker

namespace ListItem

/-- The first item of a list carries the marker of the line that the list was read from. -/
theorem exists_sequence_eq_cons (gap : List Line) (m : ListMarker) (first : Line) (ls : List Line) :
    ∃ back, (sequence gap m first ls).1 = ⟨gap, m, first, ls.take (reach m first ls)⟩ :: back := by
  rw [sequence]
  split
  · exact ⟨[], rfl⟩
  · split
    · split
      · exact ⟨_, rfl⟩
      · exact ⟨[], rfl⟩
    · exact ⟨[], rfl⟩

/-- An item is the last one if no marker of its kind follows its lines. -/
theorem sequence_eq_singleton (gap : List Line) {m : ListMarker} {first : Line} (ls : List Line)
    (last : ∀ next behind, (ls.drop (reach m first ls)).dropWhile (·.isBlank) = next :: behind →
      ∀ m', ListMarker.read? next.content = some m' → m'.kind ≠ m.kind) :
    sequence gap m first ls =
      ([⟨gap, m, first, ls.take (reach m first ls)⟩], ls.drop (reach m first ls)) := by
  rw [sequence]
  split
  · rfl
  · rename_i next behind split
    split
    · rename_i m' hm'
      rw [if_neg (last next behind split m' hm')]
    · rfl

/-- Otherwise the next item follows, with the blank lines in front of it. -/
theorem sequence_eq_cons (gap : List Line) {m m' : ListMarker} {first next : Line}
    {ls behind : List Line}
    (split : (ls.drop (reach m first ls)).dropWhile (·.isBlank) = next :: behind)
    (hm' : ListMarker.read? next.content = some m') (same : m'.kind = m.kind) :
    sequence gap m first ls =
      let later := sequence ((ls.drop (reach m first ls)).takeWhile (·.isBlank)) m' next behind
      (⟨gap, m, first, ls.take (reach m first ls)⟩ :: later.1, later.2) := by
  rw [sequence]
  split
  · simp_all
  · rename_i next₂ behind₂ split₂
    rw [split] at split₂
    cases split₂
    simp only [hm', if_pos same]

/-- A list is read up to lines that begin afresh, and its items are the same. -/
theorem sequence_append {l : Line} {more : List Line} (hl : l.isBlank = false)
    (indent : l.indent = 0) (unmarked : ListMarker.read? l.content = none) (gap : List Line)
    {m : ListMarker} {first : Line} {ls : List Line}
    (hm : ListMarker.read? first.content = some m) (hls : EndsBlank ls) :
    sequence gap m first (ls ++ l :: more) =
      ((sequence gap m first ls).1, (sequence gap m first ls).2 ++ l :: more) := by
  have offset := ListMarker.contentOffset_pos_of_read? hm
  have refused : continues m.contentOffset true l = false := by
    simp [continues, indent]
    omega
  have same : reach m first (ls ++ l :: more) = reach m first ls :=
    reach_append_of_endsBlank hls hl refused _
  have within : reach m first ls ≤ ls.length := Line.reach_le_length _ _ ls
  have taken : (ls ++ l :: more).take (reach m first (ls ++ l :: more)) =
      ls.take (reach m first ls) := by
    rw [same, List.take_append_of_le_length within]
  have dropped : (ls ++ l :: more).drop (reach m first (ls ++ l :: more)) =
      ls.drop (reach m first ls) ++ l :: more := by
    rw [same, List.drop_append_of_le_length within]
  cases split : (ls.drop (reach m first ls)).dropWhile (·.isBlank) with
  | nil =>
    -- only blank lines are left, so `l` is the next line, and it has no marker
    rw [sequence_eq_singleton gap ls (by simp [split]), sequence_eq_singleton gap]
    · rw [taken, dropped]
    · intro next behind split' m' hm'
      have split₂ : l :: more = next :: behind := by
        rw [← split', dropped, List.dropWhile_append, split]
        simp [hl]
      cases split₂
      simp [unmarked] at hm'
  | cons next behind =>
    have split' : ((ls ++ l :: more).drop (reach m first (ls ++ l :: more))).dropWhile
        (·.isBlank) = next :: (behind ++ l :: more) := by
      rw [dropped, List.dropWhile_append, split]
      rfl
    have suffix := suffix_of_dropWhile_drop split
    by_cases goesOn : ∃ m', ListMarker.read? next.content = some m' ∧ m'.kind = m.kind
    · -- another item: it takes fewer lines, and they end with the blank line too
      obtain ⟨m', hm', kind⟩ := goesOn
      have hbehind : EndsBlank behind :=
        (hls.of_suffix suffix (by simp)).tail (ListMarker.isBlank_eq_false hm')
      have shorter := suffix.length_le
      have blanks : (ls.drop (reach m first ls) ++ l :: more).takeWhile (·.isBlank) =
          (ls.drop (reach m first ls)).takeWhile (·.isBlank) :=
        takeWhile_append_of_dropWhile split _
      rw [sequence_eq_cons gap split hm' kind, sequence_eq_cons gap split' hm' kind, taken, dropped,
        blanks, sequence_append hl indent unmarked _ hm' hbehind]
    · -- a line of another kind, which ends the list on both sides
      have last : ∀ next₂ behind₂, next :: behind = next₂ :: behind₂ →
          ∀ m', ListMarker.read? next₂.content = some m' → m'.kind ≠ m.kind := by
        rintro _ _ ⟨⟩ m' hm' kind
        exact goesOn ⟨m', hm', kind⟩
      rw [sequence_eq_singleton gap ls (by rw [split]; exact last),
        sequence_eq_singleton gap, taken, dropped]
      rw [split']
      rintro _ _ ⟨⟩
      exact last next behind rfl
termination_by ls.length
decreasing_by
  rw [List.length_cons] at shorter
  omega

theorem local_read? : Local read? := by
  rintro first ls _ hls ⟨l, more, rfl, hl, indent, unmarked⟩
  rw [read?, read?]
  cases hm : ListMarker.read? first.content with
  | none => rfl
  | some m => exact congrArg some (sequence_append hl indent unmarked [] hm hls)

end ListItem

/-! ## Fences -/

namespace FencedCode

/-- Whether a line opens a fence does not depend on the lines behind it. -/
theorem read?_eq_none {l : Line} {ls : List Line} (h : read? (l :: ls) = none) (more : List Line) :
    read? (l :: more) = none := by
  rw [read?] at h ⊢
  split at h
  · rename_i indent
    rw [if_pos indent]
    simpa using h
  · rename_i indent
    rw [if_neg indent]

/-- A closed block ends with its closing fence, whatever follows. -/
theorem read?_append {l k : Line} {ls rest : List Line} {code : FencedCode}
    (h : read? (l :: ls) = some (code, rest)) (closed : code.closing? = some k)
    (behind : List Line) : read? (l :: (ls ++ behind)) = some (code, rest ++ behind) := by
  rw [read?] at h ⊢
  split at h
  · rename_i indent
    rw [if_pos indent]
    obtain ⟨fence, hf, eq⟩ := Option.map_eq_some_iff.1 h
    simp only [Prod.mk.injEq] at eq
    obtain ⟨rfl, rfl⟩ := eq
    cases hd : ls.dropWhile (!fence.closedBy ·) with
    | nil => simp [hd] at closed
    | cons k' rest =>
      rw [hf, Option.map_some, takeWhile_append_of_dropWhile hd, List.dropWhile_append, hd]
      simp
  · simp at h

/-- A block that nothing closes takes all lines. -/
theorem rest_eq_nil {l : Line} {ls rest : List Line} {code : FencedCode}
    (h : read? (l :: ls) = some (code, rest)) (unclosed : code.closing? = none) : rest = [] := by
  rw [read?] at h
  split at h
  · obtain ⟨fence, -, eq⟩ := Option.map_eq_some_iff.1 h
    simp only [Prod.mk.injEq] at eq
    obtain ⟨rfl, rfl⟩ := eq
    rw [List.head?_eq_none_iff] at unclosed
    rw [unclosed, List.tail_nil]
  · simp at h

end FencedCode

/-- A fenced code block that runs to the end of its lines. -/
def Block.isOpenFence : Block → Bool
  | .fencedCode code => code.closing?.isNone
  | _ => false

/-- The element for a code block with an opening but no closing fence. -/
def Element.isOpenFence : Element → Bool
  | .node .codeBlock (e :: es) => e.kind == .codeFenceOpen && es.all (·.kind != .codeFenceClose)
  | _ => false

namespace Block

/-- On further lines a recogniser refuses what it refuses without them, and finds what it finds,
open fences apart. -/
structure Keeps (behind : List Line) (l : Line) (ls : List Line)
    (r : List Line → Option (Block × List Line)) : Prop where
  none_of_none : r (l :: ls) = none → r (l :: (ls ++ behind)) = none
  some_of_some : ∀ {b : Block} {rest : List Line}, r (l :: ls) = some (b, rest) →
    b.isOpenFence = false → r (l :: (ls ++ behind)) = some (b, rest ++ behind)

theorem keeps_of_local {r : List Line → Option (Block × List Line)} (hr : Local r) {l : Line}
    {ls behind : List Line} (hls : EndsBlank ls) (hf : StartsAfresh behind) :
    Keeps behind l ls r := by
  constructor
  · intro no
    rw [hr l hls hf, no]
    rfl
  · intro b rest found _
    rw [hr l hls hf, found]
    rfl

theorem keeps_fencedCode (l : Line) (ls behind : List Line) :
    Keeps behind l ls
      fun lines => (FencedCode.read? lines).map fun (b, rest) => (fencedCode b, rest) := by
  constructor
  · intro no
    rw [Option.map_eq_none_iff] at no ⊢
    exact FencedCode.read?_eq_none no _
  · intro b rest found closed
    obtain ⟨⟨code, rest⟩, read, eq⟩ := Option.map_eq_some_iff.1 found
    cases eq
    obtain ⟨k, hk⟩ : ∃ k, code.closing? = some k := by
      simpa [isOpenFence, ← Option.isSome_iff_exists] using closed
    exact Option.map_eq_some_iff.2 ⟨_, FencedCode.read?_append read hk behind, rfl⟩

/-- Every recogniser does so. -/
theorem keeps_of_mem {r : List Line → Option (Block × List Line)} (mem : r ∈ recognisers) {l : Line}
    {ls behind : List Line} (hls : EndsBlank ls) (hf : StartsAfresh behind) :
    Keeps behind l ls r := by
  simp only [recognisers, List.mem_cons, List.not_mem_nil, or_false] at mem
  rcases mem with rfl | rfl | rfl | rfl | rfl | rfl | rfl | rfl | rfl | rfl
  · exact keeps_of_local (local_readBlank?.map blank) hls hf
  · exact keeps_fencedCode l ls behind
  · exact keeps_of_local (AtxHeading.local_read?.map atxHeading) hls hf
  · exact keeps_of_local (ThematicBreak.local_read?.map thematicBreak) hls hf
  · exact keeps_of_local (Quote.local_read?.map quote) hls hf
  · exact keeps_of_local (ListItem.local_read?.map list) hls hf
  · exact keeps_of_local (Html.local_read?.map html) hls hf
  · exact keeps_of_local (Table.local_read?.map table) hls hf
  · exact keeps_of_local (IndentedCode.local_read?.map indentedCode) hls hf
  · exact keeps_of_local (Paragraph.local_read?.map paragraph) hls hf

/-- The first recogniser that accepts the lines is the first one that accepts them with further
lines behind. -/
theorem keeps_recognise? {l : Line} {ls behind : List Line} (hls : EndsBlank ls)
    (hf : StartsAfresh behind) : Keeps behind l ls recognise? := by
  constructor
  · intro no
    rw [recognise?, List.findSome?_eq_none_iff] at no ⊢
    intro r hr
    exact (keeps_of_mem hr hls hf).none_of_none (no r hr)
  · intro b rest found closed
    obtain ⟨front, r, back, eq, hr, earlier⟩ := List.findSome?_eq_some_iff.1 found
    refine List.findSome?_eq_some_iff.2 ⟨front, r, back, eq, ?_, ?_⟩
    · exact (keeps_of_mem (by simp [eq]) hls hf).some_of_some hr closed
    · intro r' hr'
      exact (keeps_of_mem (by simp [eq, hr']) hls hf).none_of_none (earlier r' hr')

/-- A block found on some lines is found on more lines behind a blank one, unless it is a fence that
is still open. -/
theorem next_append {l : Line} {ls behind : List Line} (hb : EndsBlank (l :: ls))
    (hf : StartsAfresh behind) (closed : (next l ls).1.isOpenFence = false) :
    next l (ls ++ behind) = ((next l ls).1, (next l ls).2 ++ behind) := by
  by_cases hl : l.isBlank = true
  · simp [next, recognise?, recognisers, readBlank?, hl]
  · have hls := hb.tail (by simpa using hl)
    have keeps : Keeps behind l ls recognise? := keeps_recognise? hls hf
    cases found : recognise? (l :: ls) with
    | none => simp [next, found, keeps.none_of_none found]
    | some result =>
      rcases result with ⟨b, rest⟩
      have shut : b.isOpenFence = false := by simpa [next, found] using closed
      simp [next, found, keeps.some_of_some found shut]

/-- An open fence leaves no lines behind it. -/
theorem rest_eq_nil_of_isOpenFence (l : Line) (ls : List Line)
    (h : (next l ls).1.isOpenFence = true) : (next l ls).2 = [] := by
  cases block : (next l ls).1 with
  | fencedCode code =>
    rw [block, isOpenFence, Option.isNone_iff_eq_none] at h
    exact FencedCode.rest_eq_nil (fencedCode_of_next block) h
  | _ => rw [block] at h; cases h

/-! ## Sequences of blocks -/

/-- The blocks in front of further lines stay as they are, up to an open fence at their end. The
induction is on the blocks: each is found again by `next_append`, and leaves lines that are empty or
end with the blank line. -/
theorem ofLines_append_or {before behind : List Line} (hb : before = [] ∨ EndsBlank before)
    (hf : StartsAfresh behind) :
    ofLines (before ++ behind) = ofLines before ++ ofLines behind ∨
      ∃ front code back, code.closing? = none ∧ ofLines before = front ++ [fencedCode code] ∧
        ofLines (before ++ behind) = front ++ back := by
  induction before using ofLines.induct with
  | case1 => exact .inl (by simp)
  | case2 l ls b rest h ih =>
    have hb' : EndsBlank (l :: ls) := hb.resolve_left (by simp)
    rw [List.cons_append, ofLines_cons, ofLines_cons, h]
    cases open_ : b.isOpenFence with
    | true =>
      -- the fence takes all lines of `before`, and nothing is said of what it takes of the others
      right
      obtain rfl : rest = [] := by
        simpa [h] using rest_eq_nil_of_isOpenFence l ls (by rw [h]; exact open_)
      cases b with
      | fencedCode code =>
        refine ⟨[], code, (next l (ls ++ behind)).1 :: ofLines (next l (ls ++ behind)).2, ?_⟩
        have unclosed : code.closing? = none := by simpa [isOpenFence] using open_
        simp [unclosed]
      | _ => simp [isOpenFence] at open_
    | false =>
      rw [next_append hb' hf (by rw [h]; exact open_), h]
      have suffix := (suffix_and_lighter_of_next h).1.trans (List.suffix_cons l ls)
      have hrest : rest = [] ∨ EndsBlank rest :=
        (Decidable.em (rest = [])).imp_right fun hne => hb'.of_suffix suffix hne
      rcases ih hrest with eq | ⟨front, code, back, unclosed, eq, eq'⟩
      · exact .inl (by rw [eq, List.cons_append])
      · exact .inr ⟨b :: front, code, back, unclosed, by rw [eq, List.cons_append],
          by rw [eq', List.cons_append]⟩

/-- Without an open fence, the blocks of all lines are those of both parts. -/
theorem ofLines_append {before behind : List Line} (hb : EndsBlank before)
    (hf : StartsAfresh behind)
    (closed : ∀ b, (ofLines before).getLast? = some b → b.isOpenFence = false) :
    ofLines (before ++ behind) = ofLines before ++ ofLines behind := by
  rcases ofLines_append_or (.inr hb) hf with eq | ⟨front, code, back, unclosed, eq, -⟩
  · exact eq
  · have := closed (fencedCode code) (by simp [eq])
    simp [isOpenFence, unclosed] at this

theorem tree_fencedCode (code : FencedCode) : tree (fencedCode code) = .ok code.element := rfl

theorem isOpenFence_element {code : FencedCode} (unclosed : code.closing? = none) :
    code.element.isOpenFence = true := by
  by_cases none : code.content.isEmpty = true <;>
    simp [FencedCode.element, Element.isOpenFence, Element.kind, unclosed, none]

/-- **Locality.** Lines that begin afresh behind a blank line are parsed as if they stood alone, and
so are the lines in front of them, unless these end with a fence that is still open. -/
theorem elementsOf_append {before behind : List Line} (hb : EndsBlank before)
    (hf : StartsAfresh behind)
    (closed : ∀ es e, elementsOf before = .ok es → es.getLast? = some e → e.isOpenFence = false) :
    elementsOf (before ++ behind) = (do
      let es ← elementsOf before
      let fs ← elementsOf behind
      .ok (es ++ fs)) := by
  simp only [elementsOf_eq_mapM] at closed ⊢
  rcases ofLines_append_or (.inr hb) hf with eq | ⟨front, code, back, unclosed, eq, eq'⟩
  · rw [eq, List.mapM_append]
    rfl
  · -- the parse fails in front of the open fence, since otherwise it would end with it
    cases hfront : front.mapM tree with
    | error e =>
      rw [eq, eq', List.mapM_append, List.mapM_append, hfront]
      rfl
    | ok es =>
      have whole : (ofLines before).mapM tree = .ok (es ++ [code.element]) := by
        rw [eq, List.mapM_append, hfront, List.mapM_cons, tree_fencedCode, List.mapM_nil]
        rfl
      have shut := closed _ code.element whole (by simp)
      simp [isOpenFence_element unclosed] at shut

/-- A list with a lazy line and a fence inside its second item, a blank line, and then a quote. -/
theorem elementsOf_append_list_quote :
    let before : List Line := [⟨[], "- a".toList, .lf⟩, ⟨[], "b".toList, .lf⟩,
      ⟨[], "- ~~~".toList, .lf⟩, ⟨[], [], .crlf⟩]
    let behind : List Line := [⟨[], "> c".toList, .lf⟩, ⟨[], "    d".toList, .none⟩]
    EndsBlank before ∧ StartsAfresh behind ∧
      (∀ es e, elementsOf before = .ok es → es.getLast? = some e → e.isOpenFence = false) ∧
      elementsOf (before ++ behind) = (do
        let es ← elementsOf before
        let fs ← elementsOf behind
        .ok (es ++ fs)) := by
  intro before behind
  have hb : EndsBlank before := ⟨_, _, (List.dropLast_append_getLast (by simp [before])).symm, rfl⟩
  have hf : StartsAfresh behind := ⟨_, _, rfl, rfl, rfl, by decide +kernel⟩
  have closed : ∀ es e, elementsOf before = .ok es → es.getLast? = some e →
      e.isOpenFence = false := by
    have last : (elementsOf before).toOption.bind (·.getLast?) = some (.node .blankLine
        [.token .newline ['\r', '\n']]) := by decide +kernel
    intro es e h he
    rw [h] at last
    obtain rfl : e = _ := Option.some.inj (he.symm.trans last)
    rfl
  exact ⟨hb, hf, closed, elementsOf_append hb hf closed⟩

end Block

end TierLint
