import TierLint.Block.ListItem
import TierLint.Block.Paragraph
import TierLint.Block.Quote
import TierLint.Block.Table

/-!
# Blocks

The kinds of blocks and their order of precedence. A recogniser takes the block
that begins with the first of some lines and returns it with the lines behind
it; the first recogniser that succeeds wins. Containers are returned with the
lines inside, which are still to be parsed and weigh less than the lines the
container was recognised on.
-/

set_option autoImplicit false

namespace TierLint

/-- A block, with the lines inside it if it is a container. -/
inductive Block where
  /-- A blank line. -/
  | blank (line : Line)
  /-- A fenced code block. -/
  | fencedCode (code : FencedCode)
  /-- A heading with a `#` marker. -/
  | atxHeading (heading : AtxHeading)
  /-- A thematic break. -/
  | thematicBreak (line : Line)
  /-- A block quote around the lines. -/
  | quote (inside : List Line)
  /-- A list. -/
  | list (items : List ListItem)
  /-- Raw HTML. -/
  | html (lines : List Line)
  /-- A table. -/
  | table (table : Table)
  /-- An indented code block. -/
  | indentedCode (lines : List Line)
  /-- A paragraph or an underlined heading. -/
  | paragraph (paragraph : Paragraph)
  /-- A line that nothing recognised, kept as a paragraph of literal text. -/
  | literal (line : Line)
  deriving DecidableEq

namespace Block

/-- Reads a blank line. -/
def readBlank? : List Line → Option (Line × List Line)
  | [] => none
  | l :: ls => if l.isBlank then some (l, ls) else none

theorem suffix_of_readBlank? {l k : Line} {ls rest : List Line}
    (h : readBlank? (l :: ls) = some (k, rest)) : rest <:+ ls := by
  obtain ⟨-, -, rfl⟩ := by simpa [readBlank?] using h
  exact List.suffix_refl _

/-- One recogniser for each kind of block, in the order of precedence. -/
def recognisers : List (List Line → Option (Block × List Line)) :=
  [fun ls => (readBlank? ls).map fun (l, rest) => (blank l, rest),
   fun ls => (FencedCode.read? ls).map fun (code, rest) => (fencedCode code, rest),
   fun ls => (AtxHeading.read? ls).map fun (heading, rest) => (atxHeading heading, rest),
   fun ls => (ThematicBreak.read? ls).map fun (l, rest) => (thematicBreak l, rest),
   fun ls => (Quote.read? ls).map fun (inside, rest) => (quote inside, rest),
   fun ls => (ListItem.read? ls).map fun (items, rest) => (list items, rest),
   fun ls => (Html.read? ls).map fun (lines, rest) => (html lines, rest),
   fun ls => (Table.read? ls).map fun (t, rest) => (table t, rest),
   fun ls => (IndentedCode.read? ls).map fun (lines, rest) => (indentedCode lines, rest),
   fun ls => (Paragraph.read? ls).map fun (p, rest) => (paragraph p, rest)]

/-- The block that begins with the first line, and the lines behind it. -/
def recognise? (lines : List Line) : Option (Block × List Line) :=
  recognisers.findSome? (· lines)

/-- The block that begins with the line `l`, and those of the lines `ls` behind it. -/
def next (l : Line) (ls : List Line) : Block × List Line :=
  (recognise? (l :: ls)).getD (literal l, ls)

/-- The line sequences inside a container. -/
def inside : Block → List (List Line)
  | quote lines => [lines]
  | list items => items.map ListItem.inner
  | _ => []

/-- A recognised block takes at least its first line, and the lines inside it
weigh less than the lines it was recognised on. -/
theorem suffix_and_lighter_of_recognise? {l : Line} {ls rest : List Line} {b : Block}
    (h : recognise? (l :: ls) = some (b, rest)) :
    rest <:+ ls ∧ ∀ lines ∈ b.inside, Line.weight lines < Line.weight (l :: ls) := by
  obtain ⟨recogniser, mem, h⟩ := List.exists_of_findSome?_eq_some h
  simp only [recognisers, List.mem_cons, List.not_mem_nil, or_false] at mem
  rcases mem with rfl | rfl | rfl | rfl | rfl | rfl | rfl | rfl | rfl | rfl
  · obtain ⟨_, hr, h⟩ := Option.map_eq_some_iff.1 h
    cases h
    exact ⟨suffix_of_readBlank? hr, by simp [inside]⟩
  · obtain ⟨_, hr, h⟩ := Option.map_eq_some_iff.1 h
    cases h
    exact ⟨FencedCode.suffix_of_read? hr, by simp [inside]⟩
  · obtain ⟨_, hr, h⟩ := Option.map_eq_some_iff.1 h
    cases h
    exact ⟨AtxHeading.suffix_of_read? hr, by simp [inside]⟩
  · obtain ⟨_, hr, h⟩ := Option.map_eq_some_iff.1 h
    cases h
    exact ⟨ThematicBreak.suffix_of_read? hr, by simp [inside]⟩
  · obtain ⟨_, hr, h⟩ := Option.map_eq_some_iff.1 h
    cases h
    exact ⟨Quote.suffix_of_read? hr, by simpa [inside] using Quote.weight_lt_of_read? hr⟩
  · obtain ⟨_, hr, h⟩ := Option.map_eq_some_iff.1 h
    cases h
    exact ⟨ListItem.suffix_of_read? hr, by
      simpa [inside] using fun i hi => ListItem.weight_inner_lt_of_read? hr (i := i) hi⟩
  · obtain ⟨_, hr, h⟩ := Option.map_eq_some_iff.1 h
    cases h
    exact ⟨Html.suffix_of_read? hr, by simp [inside]⟩
  · obtain ⟨_, hr, h⟩ := Option.map_eq_some_iff.1 h
    cases h
    exact ⟨Table.suffix_of_read? hr, by simp [inside]⟩
  · obtain ⟨_, hr, h⟩ := Option.map_eq_some_iff.1 h
    cases h
    exact ⟨IndentedCode.suffix_of_read? hr, by simp [inside]⟩
  · obtain ⟨_, hr, h⟩ := Option.map_eq_some_iff.1 h
    cases h
    exact ⟨Paragraph.suffix_of_read? hr, by simp [inside]⟩

/-- The next block is one that a recogniser accepts, or stands for its line alone. -/
theorem next_cases {l : Line} {ls rest : List Line} {b : Block} (h : next l ls = (b, rest)) :
    recognise? (l :: ls) = some (b, rest) ∨ b = literal l ∧ rest = ls := by
  unfold next at h
  cases found : recognise? (l :: ls) with
  | some result =>
    rw [found] at h
    exact .inl (congrArg some h)
  | none =>
    rw [found] at h
    cases h
    exact .inr ⟨rfl, rfl⟩

theorem suffix_and_lighter_of_next {l : Line} {ls rest : List Line} {b : Block}
    (h : next l ls = (b, rest)) :
    rest <:+ ls ∧ ∀ lines ∈ b.inside, Line.weight lines < Line.weight (l :: ls) := by
  obtain found | ⟨rfl, rfl⟩ := next_cases h
  · exact suffix_and_lighter_of_recognise? found
  · exact ⟨List.suffix_refl _, by simp [inside]⟩

end Block

end TierLint
