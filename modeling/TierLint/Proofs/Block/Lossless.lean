import Mathlib.Data.List.TakeWhile
import TierLint.Document
import TierLint.Proofs.Block.Coverage

/-!
# Blocks write the lines they take

A recogniser returns every line it was given, inside its block or behind it; a quote changes only
how much of a line is moved aside (`lines_next`). An item of a list writes the marker it was read
from in front of its first line (`ListItem.covers_elements`). So the element of a block covers the
lines of the block if the elements inside it cover the lines inside (`covers_element`), and by
induction the elements of any lines cover these lines (`covers_elementsOf`), at every depth of
nesting.
-/

set_option autoImplicit false

namespace TierLint

open Element

/-! ## Quote markers -/

/-- What a quote marker takes of its line: indentation, the marker itself, and at most one blank
behind it. -/
theorem Quote.take_markerLength {l : Line} (h : isQuoted l = true) :
    ∃ gap, l.content.take (markerLength l) = Text.indentation l.content ++ '>' :: gap ∧
      (Text.indentation l.content ++ '>' :: gap).length = markerLength l ∧
      ∀ c ∈ gap, Text.isIndentChar c = true := by
  rw [isQuoted, Bool.and_eq_true] at h
  obtain ⟨rest, body⟩ := Text.eq_cons_of_startsBy h.2
  -- at most one blank behind the marker belongs to it
  obtain ⟨gap, behind, split, length, blanks⟩ : ∃ gap behind, rest = gap ++ behind ∧
      gap.length = (if Text.startsBy Text.isIndentChar rest then 1 else 0) ∧
      ∀ c ∈ gap, Text.isIndentChar c = true := by
    cases rest with
    | nil => exact ⟨[], [], rfl, rfl, List.forall_mem_nil _⟩
    | cons c rest =>
      rw [Text.startsBy]
      split
      · rename_i blank
        exact ⟨[c], rest, rfl, rfl, fun d hd => by rwa [List.mem_singleton.1 hd]⟩
      · exact ⟨[], c :: rest, rfl, rfl, List.forall_mem_nil _⟩
  have content : l.content = Text.indentation l.content ++ '>' :: gap ++ behind := by
    rw [List.append_assoc, List.cons_append, ← split, ← body, Text.indentation_append_unindented]
  have front : (Text.indentation l.content ++ '>' :: gap).length = markerLength l := by
    rw [markerLength, body, List.drop_one, List.tail_cons, ← length, List.length_append,
      List.length_cons, ← Nat.add_assoc, Nat.add_right_comm]
    rfl
  refine ⟨gap, ?_, front, blanks⟩
  calc l.content.take (markerLength l)
      = (Text.indentation l.content ++ '>' :: gap ++ behind).take
          (Text.indentation l.content ++ '>' :: gap).length := by rw [front, ← content]
    _ = Text.indentation l.content ++ '>' :: gap := List.take_left

/-! ## Items of lists -/

namespace ListMarker

/-- A text begins with a bullet, which shows no number, or with digits and a delimiter. -/
theorem symbol?_cases {t text behind : Text} {kind : MarkerKind} {number? : Option Nat}
    (h : symbol? t = some (kind, number?, text, behind)) :
    text ++ behind = t ∧
      ((∃ c, (c = '-' ∨ c = '*' ∨ c = '+') ∧ kind = .bullet c ∧ number? = none ∧ text = [c]) ∨
        ∃ digits d, (∀ c ∈ digits, c.isDigit = true) ∧ (d = '.' ∨ d = ')') ∧
          kind = .ordered d ∧ number? = some (decimal digits) ∧ text = digits ++ [d]) := by
  unfold symbol? at h
  split at h
  · cases h
  · split at h
    · rename_i c rest bullet
      cases h
      simp only [Bool.or_eq_true, beq_iff_eq, or_assoc] at bullet
      exact ⟨rfl, .inl ⟨c, bullet, rfl, rfl, rfl⟩⟩
    · simp only at h
      split at h
      · rename_i d behind cut
        split at h
        · rename_i accepted
          cases h
          simp only [Bool.and_eq_true, Bool.or_eq_true, beq_iff_eq] at accepted
          refine ⟨?_, .inr ⟨_, d, ?_, accepted.2, rfl, rfl, rfl⟩⟩
          · rw [List.append_assoc, List.singleton_append, ← cut, List.takeWhile_append_dropWhile]
          · intro c hc
            exact List.mem_takeWhile_imp hc
        · cases h
      · cases h

/-- A marker stands in its line behind the line's indentation, and takes some of the blanks behind
it. -/
theorem read?_cases {content : Text} {m : ListMarker} (h : read? content = some m) :
    ∃ behind, symbol? (Text.unindented content) = some (m.kind, m.number?, m.text, behind) ∧
      m.indent = Text.indent content ∧ m.gap ≤ Text.indent behind := by
  unfold read? at h
  split at h
  · rename_i kind number? text behind symbol
    simp only at h
    split at h
    · cases h
      refine ⟨behind, symbol, rfl, ?_⟩
      simp only
      split <;> omega
    · cases h
  · cases h

theorem content_of_read? {content : Text} {m : ListMarker} (h : read? content = some m) :
    ∃ behind, content = Text.indentation content ++ (m.text ++ behind) ∧
      m.indent = (Text.indentation content).length := by
  rcases read?_cases h with ⟨behind, symbol, indent, -⟩
  refine ⟨behind, ?_, indent⟩
  rw [(symbol?_cases symbol).1, Text.indentation_append_unindented]

/-- What a marker takes of its line: indentation, the marker itself, and the blanks behind it. -/
theorem take_contentOffset {content : Text} {m : ListMarker} (h : read? content = some m) :
    content.take m.contentOffset =
      content.take m.indent ++ m.text ++
        ((content.drop m.indent).drop m.text.length).take m.gap := by
  obtain ⟨behind, whole, indent⟩ := content_of_read? h
  have marker : (content.drop m.indent).take m.text.length = m.text := by
    rw [whole, indent, List.drop_left, List.take_left]
  rw [contentOffset, List.take_add, List.take_add, marker, ← List.drop_drop]

end ListMarker

namespace ListItem

/-- The lines of an item, with the blank lines in front of it. -/
def all (i : ListItem) : List Line := i.gap ++ i.first :: i.rest

/-- The marker is that of the first line. -/
def WellMarked (i : ListItem) : Prop := ListMarker.read? i.first.content = some i.marker

@[simp] theorem map_face_strip (offset : Nat) (ls : List Line) :
    (ls.map (strip offset)).map Line.face = ls.map Line.face := by
  simp [strip, Function.comp_def]

theorem covers_elements {i : ListItem} (marked : i.WellMarked) {inside : List Element}
    (h : Covers i.inner (tokensOf inside)) : Covers i.all (tokensOf (i.elements inside)) := by
  have gap : Covers i.gap (tokensOf (i.gap.map Line.blankElement)) := by
    induction i.gap with
    | nil => exact .nil
    | cons l ls ih => exact l.covers_blankElement.append ih
  -- the marker is written in front of what the lines inside have left of the first line
  have front := ((i.first.spells_pendingElements.append
    (Spells.spacing (i.first.content.take i.marker.indent))).append
    (Spells.token (k := .listMarker) (by decide) i.marker.text)).append
    (Spells.spacing
      (((i.first.content.drop i.marker.indent).drop i.marker.text.length).take i.marker.gap))
  have front' := front.of_eq (u := i.first.pending ++ i.first.content.take i.marker.contentOffset)
    (by rw [ListMarker.take_contentOffset marked]; simp only [List.append_assoc])
  have inner : Covers (i.first.consume i.marker.contentOffset :: i.rest) (tokensOf inside) :=
    h.of_map_face (by rw [ListItem.inner, List.map_cons, List.map_cons, map_face_strip])
  rw [elements, tokensOf_append, all]
  refine gap.append ?_
  simpa only [tokensOf_cons, tokens_node, tokens_token, tokensOf_append, tokensOf_nil,
    List.append_nil] using inner.of_consume front'

/-- The items of a list hold the lines of the list in order, each with the marker of its line. The
induction follows the reader from item to item; blank lines wait in `gap`. -/
theorem all_sequence {m : ListMarker} {first : Line} (gap ls : List Line)
    (h : ListMarker.read? first.content = some m) :
    (∀ i ∈ (sequence gap m first ls).1, i.WellMarked) ∧
      (sequence gap m first ls).1.flatMap all ++ (sequence gap m first ls).2 =
        gap ++ first :: ls := by
  fun_induction sequence gap m first ls with
  | case1 gap m first ls n item _ =>
    exact ⟨by simpa [item, WellMarked] using h, by simp [item, all]⟩
  | case2 gap m first ls n item next behind split m' hm' _ items rest eq ih =>
    -- another item of the same kind follows
    obtain ⟨marked, lines⟩ := ih hm'
    rw [eq] at marked lines
    refine ⟨fun i hi => ?_, ?_⟩
    · rcases List.mem_cons.1 hi with rfl | hi
      · exact h
      · exact marked i hi
    · rw [List.flatMap_cons, List.append_assoc, lines, ← split, List.takeWhile_append_dropWhile]
      simp [item, all]
  | case3 gap m first ls n item =>
    exact ⟨by simpa [item, WellMarked] using h, by simp [item, all]⟩
  | case4 gap m first ls n item =>
    exact ⟨by simpa [item, WellMarked] using h, by simp [item, all]⟩

theorem all_of_read? {lines rest : List Line} {items : List ListItem}
    (h : read? lines = some (items, rest)) :
    (∀ i ∈ items, i.WellMarked) ∧ items.flatMap all ++ rest = lines := by
  cases lines with
  | nil => simp [read?] at h
  | cons l ls =>
    obtain ⟨m, hm, eq⟩ := by simpa [read?] using h
    have whole := all_sequence [] ls hm
    rwa [eq] at whole

end ListItem

/-! ## Lines of blocks -/

theorem FencedCode.lines_of_read? {lines rest : List Line} {b : FencedCode}
    (h : read? lines = some (b, rest)) :
    b.opening :: b.content ++ b.closing?.toList ++ rest = lines := by
  cases lines with
  | nil => simp [read?] at h
  | cons l ls =>
    obtain ⟨-, fence, -, rfl, rfl⟩ := by simpa [read?] using h
    have behind : ∀ ks : List Line, ks.head?.toList ++ ks.tail = ks := by
      intro ks
      cases ks <;> rfl
    rw [List.append_assoc, behind, List.cons_append, List.takeWhile_append_dropWhile]

theorem Quote.map_face_of_read? {lines inside rest : List Line}
    (h : read? lines = some (inside, rest)) :
    inside.map Line.face ++ rest.map Line.face = lines.map Line.face := by
  cases lines with
  | nil => simp [read?] at h
  | cons l ls =>
    obtain ⟨-, rfl, rfl⟩ := by simpa [read?] using h
    have strips : ∀ ks : List Line, (ks.map strip).map Line.face = ks.map Line.face := by
      intro ks
      simp [strip, Function.comp_def]
    rw [← List.map_cons, strips, ← List.map_append, List.cons_append,
      List.takeWhile_append_dropWhile]

theorem Html.lines_of_read? {lines taken rest : List Line} (h : read? lines = some (taken, rest)) :
    taken ++ rest = lines := by
  cases lines with
  | nil => simp [read?] at h
  | cons l ls =>
    obtain ⟨-, rfl, rfl⟩ := by simpa [read?] using h
    rw [List.cons_append, List.takeWhile_append_dropWhile]

theorem Table.lines_of_read? {lines rest : List Line} {t : Table}
    (h : read? lines = some (t, rest)) : t.all ++ rest = lines := by
  unfold read? at h
  split at h
  · split at h
    · cases h
      rw [all, List.cons_append, List.cons_append, List.takeWhile_append_dropWhile]
    · cases h
  · cases h

theorem IndentedCode.lines_of_read? {lines taken rest : List Line}
    (h : read? lines = some (taken, rest)) : taken ++ rest = lines := by
  cases lines with
  | nil => simp [read?] at h
  | cons l ls =>
    obtain ⟨-, rfl, rfl⟩ := by simpa [read?] using h
    rw [List.cons_append, List.take_append_drop]

theorem Paragraph.lines_of_read? {lines rest : List Line} {p : Paragraph}
    (h : read? lines = some (p, rest)) : p.all ++ rest = lines := by
  cases lines with
  | nil => simp [read?] at h
  | cons l ls =>
    have whole := List.takeWhile_append_dropWhile (p := continues) (l := ls)
    rw [read?] at h
    split at h
    · cases h
    · simp only at h
      split at h
      · rename_i ended
        cases h
        rw [ended] at whole
        simpa [all] using whole
      · rename_i next behind ended
        rw [ended] at whole
        split at h <;> cases h <;> simpa [all] using whole

namespace Block

/-- The lines of a block. Those of a quote have its markers moved aside. -/
def lines : Block → List Line
  | blank l => [l]
  | fencedCode b => b.opening :: b.content ++ b.closing?.toList
  | atxHeading h => [h.line]
  | thematicBreak l => [l]
  | quote ls => ls
  | list items => items.flatMap ListItem.all
  | html ls => ls
  | table t => t.all
  | indentedCode ls => ls
  | paragraph p => p.all
  | literal l => [l]

/-- Headings and the items of a list carry the markers of their lines. -/
def WellMarked : Block → Prop
  | atxHeading h => AtxHeading.level? h.line.content = some h.level
  | list items => ∀ i ∈ items, i.WellMarked
  | _ => True

/-- A recogniser takes its block from the front of the lines and leaves the others behind it. -/
theorem lines_recognise? {ls rest : List Line} {b : Block} (h : recognise? ls = some (b, rest)) :
    b.WellMarked ∧ b.lines.map Line.face ++ rest.map Line.face = ls.map Line.face := by
  obtain ⟨recogniser, mem, h⟩ := List.exists_of_findSome?_eq_some h
  -- all but a quote return the lines as they are
  have ofLines : ∀ {b : Block}, b.lines ++ rest = ls →
      b.lines.map Line.face ++ rest.map Line.face = ls.map Line.face := by
    intro b eq
    rw [← List.map_append, eq]
  simp only [recognisers, List.mem_cons, List.not_mem_nil, or_false] at mem
  rcases mem with rfl | rfl | rfl | rfl | rfl | rfl | rfl | rfl | rfl | rfl
  all_goals
    obtain ⟨_, hr, h⟩ := Option.map_eq_some_iff.1 h
    cases h
  -- blank lines, code between fences, headings and thematic breaks
  · cases ls with
    | nil => simp [readBlank?] at hr
    | cons l ls =>
      obtain ⟨-, rfl, rfl⟩ := by simpa [readBlank?] using hr
      exact ⟨trivial, rfl⟩
  · exact ⟨trivial, ofLines (FencedCode.lines_of_read? hr)⟩
  · cases ls with
    | nil => simp [AtxHeading.read?] at hr
    | cons l ls =>
      obtain ⟨level, marker, rfl, rfl⟩ := by simpa [AtxHeading.read?] using hr
      exact ⟨marker, rfl⟩
  · cases ls with
    | nil => simp [ThematicBreak.read?] at hr
    | cons l ls =>
      obtain ⟨-, rfl, rfl⟩ := by simpa [ThematicBreak.read?] using hr
      exact ⟨trivial, rfl⟩
  -- quotes, lists, HTML, tables, indented code and paragraphs
  · exact ⟨trivial, Quote.map_face_of_read? hr⟩
  · have read := ListItem.all_of_read? hr
    exact ⟨read.1, ofLines read.2⟩
  · exact ⟨trivial, ofLines (Html.lines_of_read? hr)⟩
  · exact ⟨trivial, ofLines (Table.lines_of_read? hr)⟩
  · exact ⟨trivial, ofLines (IndentedCode.lines_of_read? hr)⟩
  · exact ⟨trivial, ofLines (Paragraph.lines_of_read? hr)⟩

/-- The same of the next block, also where no recogniser accepts the line. -/
theorem lines_next {l : Line} {ls rest : List Line} {b : Block} (h : next l ls = (b, rest)) :
    b.WellMarked ∧ b.lines.map Line.face ++ rest.map Line.face = (l :: ls).map Line.face := by
  obtain found | ⟨rfl, rfl⟩ := next_cases h
  · exact lines_recognise? found
  · exact ⟨trivial, rfl⟩

/-- The element of a block covers its lines if what stands inside it covers the lines inside. -/
theorem covers_element {b : Block} (marked : b.WellMarked) {inner : List (List Element)}
    (hinner : List.Forall₂ (fun ls es => Covers ls (tokensOf es)) b.inside inner) {e : Element}
    (h : b.element inner = .ok e) : Covers b.lines e.tokens := by
  cases b with
  | blank l =>
    cases h
    exact l.covers_blankElement
  | fencedCode code =>
    cases h
    exact code.covers_element
  | atxHeading heading => exact heading.covers_element h
  | thematicBreak l =>
    cases h
    exact ThematicBreak.covers_element l
  | quote ls =>
    cases h
    obtain ⟨es, rfl, covers⟩ := exists_inner_of_quote hinner
    simpa [lines] using covers
  | list items =>
    cases h
    rw [tokens_node]
    simp only [inside, List.forall₂_map_left_iff] at hinner
    change ∀ i ∈ items, i.WellMarked at marked
    change Covers (items.flatMap ListItem.all) _
    induction hinner with
    | nil => exact .nil
    | cons first _ ih =>
      -- one item behind the other
      rw [List.zipWith_cons_cons, List.flatten_cons, tokensOf_append, List.flatMap_cons]
      exact (ListItem.covers_elements (marked _ (by simp)) first).append
        (ih fun i hi => marked i (by simp [hi]))
  | html ls =>
    cases h
    exact Html.covers_element ls
  | table t =>
    cases h
    exact t.covers_element
  | indentedCode ls =>
    cases h
    exact IndentedCode.covers_element ls
  | paragraph p =>
    cases h
    exact p.covers_element
  | literal l =>
    cases h
    rw [tokens_node]
    exact l.covers_elements (by decide)

/-- The elements of any lines cover these lines. -/
theorem covers_elementsOf {ls : List Line} {es : List Element} (h : elementsOf ls = .ok es) :
    Covers ls (tokensOf es) := by
  refine elementsOf_induction (P := fun ls es => Covers ls (tokensOf es)) .nil ?_ h
  intro l ls b rest inner first others hnext hinner hfirst hothers
  obtain ⟨marked, same⟩ := lines_next hnext
  rw [tokensOf_cons]
  refine ((covers_element marked hinner hfirst).append hothers).of_map_face ?_
  rw [List.map_append, same]

end Block

theorem FrontMatter.lines_of_read? {lines rest : List Line} {f : FrontMatter}
    (h : read? lines = some (f, rest)) :
    f.opening :: f.content ++ [f.closing] ++ rest = lines := by
  cases lines with
  | nil => simp [read?] at h
  | cons l ls =>
    rw [read?] at h
    split at h
    · rename_i closing behind ended
      split at h
      · cases h
        rw [List.append_assoc, List.singleton_append, ← ended, List.cons_append,
          List.takeWhile_append_dropWhile]
      · cases h
    · cases h

/-- The elements of a document cover its lines. -/
theorem Document.covers_elements {ls : List Line} {es : List Element}
    (h : Document.elements ls = .ok es) : Covers ls (tokensOf es) := by
  rw [Document.elements] at h
  split at h
  · rename_i f rest front
    cases hrest : Block.elementsOf rest with
    | error e =>
      rw [hrest] at h
      cases h
    | ok others =>
      rw [hrest] at h
      cases h
      rw [← FrontMatter.lines_of_read? front, tokensOf_cons]
      exact f.covers_element.append (Block.covers_elementsOf hrest)
  · exact Block.covers_elementsOf h

end TierLint
