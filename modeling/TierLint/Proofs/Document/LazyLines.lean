import TierLint.Proofs.Block.Continuation
import TierLint.Proofs.Document.Origin

/-!
# Lazy lines of list items

A lazy line belongs to an item though it is not indented to the item's content. Such a line is meant
to go on with a paragraph. The reader of lists asks only whether the line behind which it stands is
blank, and whether the line carries a marker or interrupts a paragraph (`ListItem.Lazy.accepted`);
it does not ask whether a paragraph stands there.

So a lazy line lies in the paragraph of the line in front of it exactly if it joins the paragraph
that the lines of the item above it end in (`Document.lazy_joined_iff`).
-/

set_option autoImplicit false

namespace TierLint

open Element List Text

/-! ## What the reader of lists asks -/

/-- What a search across blank lines asks about each line that it takes and that is not blank. -/
theorem Line.accepts_of_getElem?_take {accepts : Bool → Line → Bool} {ls : List Line} {n : Nat}
    {l : Line} (afterBlank : Bool) (h : (ls.take (reach accepts afterBlank ls))[n]? = some l)
    (filled : l.isBlank = false) :
    ∃ blank, (afterBlank :: (ls.take (reach accepts afterBlank ls)).map isBlank)[n]? = some blank ∧
      accepts blank l = true := by
  induction ls generalizing afterBlank n with
  | nil => cases h
  | cons k ls ih =>
    by_cases blank : k.isBlank = true
    · rw [reach_cons_of_isBlank accepts afterBlank blank] at h ⊢
      split at h
      · cases h
      · rw [take_succ_cons] at h
        rw [if_neg ‹_›, take_succ_cons, map_cons, blank]
        cases n with
        | zero =>
          cases h
          exact absurd (blank.symm.trans filled) (by decide)
        | succ n => exact ih true h
    · rw [reach, if_neg blank] at h ⊢
      split at h
      · rename_i accepted
        rw [take_succ_cons] at h
        rw [if_pos accepted, take_succ_cons, map_cons, Bool.eq_false_iff.2 blank]
        cases n with
        | zero =>
          cases h
          exact ⟨afterBlank, rfl, accepted⟩
        | succ n => exact ih false h
      · cases h

namespace ListItem

/-- The line stands in the item behind `n + 1` others, is not blank and is not indented to the
item's content. -/
structure Lazy (i : ListItem) (n : Nat) (l : Line) : Prop where
  line : i.rest[n]? = some l
  filled : l.isBlank = false
  indent : l.indent < i.marker.contentOffset

/-- The byte of the item's text at which its lines behind the first `n` begin. -/
def lineStart (i : ListItem) (n : Nat) : Nat :=
  byteLength (Line.textOf ((i.first :: i.rest).take n))

variable {gap ls lines : List Line} {m : ListMarker} {first l : Line} {front : List ListItem}
  {i : ListItem} {n : Nat}

/-- The further lines of an item are those that its first line and marker reach. -/
theorem exists_rest_eq_take (gap : List Line) (m : ListMarker) (first : Line) (ls : List Line) :
    ∀ i ∈ (sequence gap m first ls).1,
      ∃ ks : List Line, i.rest = ks.take (reach i.marker i.first ks) := by
  fun_induction sequence gap m first ls with
  | case2 gap m first ls n item next behind split m' hm' same items rest eq ih =>
    rw [eq] at ih
    exact forall_mem_cons.2 ⟨⟨ls, rfl⟩, ih⟩
  | _ => exact forall_mem_singleton.2 ⟨_, rfl⟩

/-- A lazy line stands behind a line that is not blank, carries no marker and does not interrupt a
paragraph. -/
theorem Lazy.accepted (lazy : i.Lazy n l) (stands : i.StandsIn lines front) :
    (∃ k, (i.first.consume i.marker.contentOffset :: i.rest)[n]? = some k ∧ k.isBlank = false) ∧
      ListMarker.read? l.content = none ∧ l.interruptsParagraph = false := by
  obtain ⟨k, ks, back, -, eq⟩ := stands
  obtain ⟨m, opens, items⟩ := Block.list_of_next eq
  obtain ⟨ls, rest⟩ := exists_rest_eq_take [] m k ks i
    (items ▸ mem_append_right front mem_cons_self)
  have line := lazy.line
  rw [reach] at rest
  rw [rest] at line
  obtain ⟨blank, inFront, accepted⟩ := Line.accepts_of_getElem?_take _ line lazy.filled
  rw [← rest] at inFront
  -- without the indentation, the line in front must not be blank
  have shallow := lazy.indent
  simp only [continues, Nat.not_le.2 shallow, decide_false, Bool.false_or, Bool.and_eq_true,
    Bool.not_eq_true', Option.isNone_iff_eq_none] at accepted
  obtain ⟨⟨rfl, unmarked⟩, goesOn⟩ := accepted
  refine ⟨?_, unmarked, goesOn⟩
  exact Option.map_eq_some_iff.1 (getElem?_map.symm.trans inFront)

theorem lineStart_eq (i : ListItem) (n : Nat) :
    i.lineStart n = byteLength (((i.first :: i.rest).map Line.text).take n).flatten := by
  rw [lineStart, Line.textOf, flatMap_def, map_take]

theorem lineStart_succ (line : i.rest[n]? = some l) :
    i.lineStart (n + 2) = i.lineStart (n + 1) + byteLength l.text := by
  rw [lineStart, lineStart, take_add_one, getElem?_cons_succ, line, Line.textOf, Line.textOf,
    flatMap_append, byteLength_append]
  simp

/-- A line of an item lies in a paragraph that begins in front of it exactly if it joins the
paragraph that the lines above it end in. -/
theorem exists_paragraph_iff_joinsBehind {inside : List Element} (marked : i.WellMarked)
    (ok : Block.elementsOf i.inner = .ok inside) (line : i.rest[n]? = some l)
    (filled : l.isBlank = false) :
    (∃ w ∈ (i.node inside).nodesOf .paragraph, w.start < i.lineStart (n + 1) ∧
        i.lineStart (n + 1) + byteLength l.text ≤ w.stop) ↔
      Block.JoinsBehind (i.inner.take (n + 1)) (i.inner.drop (n + 1)) := by
  -- in the tree the paragraph is a mark, and the mark is told from the lines above
  have marks := marks_node marked (Block.marks_of_elementsOf ok)
  have place := marks.inParagraph 0 (n + 1)
  have nonempty := byteLength_pos (Line.text_ne_nil filled)
  rw [← lineStart_eq, ← lineStart_eq, Nat.zero_add, Nat.zero_add, lineStart_succ line,
    inParagraph_iff_exists_visit (Nat.lt_add_of_pos_right nonempty) [], visitsFromAll,
    visitsFromAll, append_nil] at place
  have within := (List.getElem?_eq_some_iff.1 line).1
  have joined := Block.joined_append_iff (i.inner.take (n + 1)) (i.inner.drop (n + 1))
  have above : (i.inner.take (n + 1)).length = n + 1 := by
    rw [length_take, inner, length_cons, length_map]
    omega
  rw [take_append_drop, above] at joined
  rw [← joined, ← place]
  simp only [nodesOf, visitsOf, visits, mem_filter, isParagraph, beq_iff_eq, Bool.and_eq_true]
  exact exists_congr fun w => by tauto

end ListItem

namespace Document

variable {t : Text} {tree : Element} {v : Visit}

/-- **Lazy lines.** Each item in a tree has been read from lines. A lazy line among them stands behind
a line that is not blank, carries no marker and does not interrupt a paragraph. It lies as a whole in
a paragraph that begins in front of it exactly if it joins the paragraph that the lines of the item
above it end in. -/
theorem lazy_joined_iff (h : parse t = .ok tree) (hv : v ∈ tree.nodesOf .listItem) :
    (∃ front i inside, ListItem.StandsIn (body t) front i ∧
      Block.elementsOf i.inner = .ok inside ∧ v.element = i.node inside) ∧
    ∀ front i inside, ListItem.StandsIn (body t) front i → Block.elementsOf i.inner = .ok inside →
      v.element = i.node inside → ∀ n l, i.Lazy n l →
        (∃ k, (i.first.consume i.marker.contentOffset :: i.rest)[n]? = some k ∧
          k.isBlank = false) ∧
        ListMarker.read? l.content = none ∧ l.interruptsParagraph = false ∧
        ((∃ w ∈ v.element.nodesOf .paragraph, w.start < i.lineStart (n + 1) ∧
            i.lineStart (n + 1) + byteLength l.text ≤ w.stop) ↔
          Block.JoinsBehind (i.inner.take (n + 1)) (i.inner.drop (n + 1))) := by
  refine ⟨exists_item_of_mem_nodesOf h hv, fun front i inside stands ok eq n l lazy => ?_⟩
  obtain ⟨inFront, unmarked, goesOn⟩ := lazy.accepted stands
  refine ⟨inFront, unmarked, goesOn, ?_⟩
  rw [eq]
  exact ListItem.exists_paragraph_iff_joinsBehind stands.wellMarked ok lazy.line lazy.filled

/-- The lazy line of an item in a quote lies in the paragraph of the item. -/
theorem lazy_joined_iff_quoted :
    let t := "> - a\n> b\n".toList
    let l : Line := ⟨"> ".toList, ['b'], .lf⟩
    let i : ListItem :=
      ⟨[], ⟨.bullet '-', 0, ['-'], 1, none⟩, ⟨"> ".toList, "- a".toList, .lf⟩, [l]⟩
    i.StandsIn (body t) [] ∧ i.Lazy 0 l ∧
      ∃ tree v inside, parse t = .ok tree ∧ v ∈ tree.nodesOf .listItem ∧
        Block.elementsOf i.inner = .ok inside ∧ v.element = i.node inside ∧
        ∃ w ∈ v.element.nodesOf .paragraph, w.start < i.lineStart 1 ∧
          i.lineStart 1 + byteLength l.text ≤ w.stop := by
  intro t l i
  have lines : body "> - a\n> b\n".toList =
      [⟨[], "> - a".toList, .lf⟩, ⟨[], "> b".toList, .lf⟩] := by
    decide +kernel
  have quote : (Block.next ⟨[], "> - a".toList, .lf⟩ [⟨[], "> b".toList, .lf⟩]).1 =
      .quote [⟨"> ".toList, "- a".toList, .lf⟩, l] := by
    decide +kernel
  have stands : i.StandsIn (body t) [] := by
    refine ⟨⟨"> ".toList, "- a".toList, .lf⟩, [l], [], ?_, by decide +kernel⟩
    rw [lines]
    exact .inside (quote ▸ mem_singleton.2 rfl)
  have lazy : i.Lazy 0 l := ⟨rfl, by decide, by decide⟩
  have joins : Block.JoinsBehind (i.inner.take 1) (i.inner.drop 1) :=
    ⟨.paragraph ⟨[⟨[], ['a'], .lf⟩], none⟩, by decide +kernel,
      .paragraph rfl (by decide +kernel) (by decide +kernel) (by decide +kernel)⟩
  let inside : List Element := [.node .paragraph [.token .text ['a'], .token .newline ['\n'],
    .token .blockQuoteMarker ['>'], .token .whitespace [' '], .token .text ['b'],
    .token .newline ['\n']]]
  have parsed : parse "> - a\n> b\n".toList =
      .ok (Document.tree [.node .blockQuote [.node .list [i.node inside]]]) := by
    decide +kernel
  have ok : Block.elementsOf i.inner = .ok inside := by decide +kernel
  obtain ⟨-, same⟩ := lazy_joined_iff parsed (v := ⟨_, 0, i.node inside⟩) mem_cons_self
  obtain ⟨-, -, -, lies⟩ := same [] i inside stands ok rfl 0 l lazy
  exact ⟨stands, lazy, _, _, inside, parsed, mem_cons_self, ok, rfl, lies.2 joins⟩

/-- A lazy line of equal signs makes a heading of the paragraph that it should go on with. -/
theorem lazy_line_underlines :
    let t := "- a\n===\n".toList
    let l : Line := ⟨[], "===".toList, .lf⟩
    let i : ListItem := ⟨[], ⟨.bullet '-', 0, ['-'], 1, none⟩, ⟨[], "- a".toList, .lf⟩, [l]⟩
    let item := i.node [.node .heading
      [.node .headingContent [.token .text ['a'], .token .newline ['\n']],
       .node .headingUnderline [.token .headingUnderline "===".toList, .token .newline ['\n']]]]
    i.StandsIn (body t) [] ∧ i.Lazy 0 l ∧ parse t = .ok (Document.tree [.node .list [item]]) ∧
      item.nodesOf .paragraph = [] := by
  dsimp only
  refine ⟨⟨⟨[], "- a".toList, .lf⟩, [⟨[], "===".toList, .lf⟩], [], ?_, by decide +kernel⟩,
    ⟨rfl, by decide, by decide⟩, by decide +kernel, by decide +kernel⟩
  have lines : body "- a\n===\n".toList =
      [⟨[], "- a".toList, .lf⟩, ⟨[], "===".toList, .lf⟩] := by
    decide +kernel
  rw [lines]
  exact .refl _

end Document

end TierLint
