import TierLint.Proofs.Block.Locality
import TierLint.Proofs.Block.Origin
import TierLint.Proofs.Syntax.InParagraph

/-!
# Lines that a paragraph joins

A line is joined to the line in front of it if one paragraph holds both. `Block.joined` says of each
line whether it is, from the blocks that the lines consist of, and `Block.marks_of_elementsOf` that
in the tree these are the lines that lie inside a paragraph which begins in front of them.

Only lines that are not blank are joined (`Block.not_isBlank_of_joined`).
-/

set_option autoImplicit false

namespace TierLint

open Element List Text

namespace Block

/-- Which lines of a block are joined to the line in front of them, given the same of the lines
inside it. -/
def joinedWith (inner : List (List Bool)) : Block → List Bool
  | paragraph ⟨lines, none⟩ => false :: replicate lines.tail.length true
  | quote _ => inner.flatten
  | list items =>
    (zipWith (fun i joined => replicate i.gap.length false ++ joined) items inner).flatten
  | b => replicate b.lines.length false

/-- Which lines are joined to the line in front of them. -/
def joined (lines : List Line) : List Bool :=
  match lines with
  | [] => []
  | l :: ls =>
    match _h : next l ls with
    | (block, rest) =>
      block.joinedWith (block.inside.attach.map fun ⟨ks, _⟩ => joined ks) ++ joined rest
termination_by Line.weight lines
decreasing_by
  · exact (suffix_and_lighter_of_next _h).2 _ ‹_›
  · have := Line.weight_le_of_suffix (suffix_and_lighter_of_next _h).1
    simp
    omega

@[simp] theorem joined_nil : joined [] = [] := by rw [joined]

theorem joined_cons (l : Line) (ls : List Line) :
    joined (l :: ls) =
      (next l ls).1.joinedWith ((next l ls).1.inside.map joined) ++ joined (next l ls).2 := by
  rw [joined]
  simp only [map_subtype, unattach_attach]

end Block

/-! ## Marks in the tree -/

theorem Line.text_ne_nil {l : Line} (h : l.isBlank = false) : l.text ≠ [] := by
  intro none
  obtain ⟨none, -⟩ := append_eq_nil_iff.1 none
  rw [Line.isBlank, (append_eq_nil_iff.1 none).2] at h
  cases h

/-- An item writes in front of the elements of its lines what its marker takes of its first line. -/
theorem ListItem.textOf_opening {i : ListItem} (marked : i.WellMarked) :
    textOf i.opening ++ (i.first.consume i.marker.contentOffset).text = i.first.text := by
  have pending : textOf i.first.pendingElements = i.first.pending := by
    rw [textOf_eq_flatMap]
    exact i.first.spells_pendingElements.text
  rw [opening, textOf_append, textOf_append, textOf_append, pending, spacing, spacing,
    textOf_tokenUnlessEmpty, textOf_tokenUnlessEmpty]
  calc i.first.pending ++ i.first.content.take i.marker.indent
        ++ textOf [.token .listMarker i.marker.text]
        ++ ((i.first.content.drop i.marker.indent).drop i.marker.text.length).take i.marker.gap
        ++ (i.first.consume i.marker.contentOffset).text
      = i.first.pending ++ i.first.content.take i.marker.contentOffset
        ++ (i.first.consume i.marker.contentOffset).text := by
        rw [ListMarker.take_contentOffset marked]
        simp [Element.text]
    _ = i.first.text := by
        rw [Line.text, Line.text, Line.consume, nil_append, append_assoc, ← append_assoc (take _ _),
          take_append_drop, append_assoc]

/-- The node of an item has the marks of the lines inside it. -/
theorem ListItem.marks_node {i : ListItem} (marked : i.WellMarked) {inside : List Element}
    {marks : List Bool} (h : Marks (i.inner.map Line.text) inside marks) :
    Marks ((i.first :: i.rest).map Line.text) [i.node inside] marks := by
  have inner : i.inner.map Line.text =
      (i.first.consume i.marker.contentOffset).text :: i.rest.map Line.text := by
    rw [ListItem.inner, map_cons, map_map]
    congr 2
    funext k
    exact k.text_advance _
  rw [inner] at h
  have tokens : ∀ e ∈ i.opening, e.isNode = false := fun e he =>
    (i.every_opening (P := fun e => e.isNode = false) rfl e he).self
  have node := (h.opening tokens).node (k := .listItem) (by decide)
  rwa [textOf_opening marked] at node

/-- An item has the marks of the lines inside it, behind unmarked blank lines. -/
theorem ListItem.marks_elements {i : ListItem} (marked : i.WellMarked) {inside : List Element}
    {marks : List Bool} (h : Marks (i.inner.map Line.text) inside marks) :
    Marks (i.all.map Line.text) (i.elements inside) (replicate i.gap.length false ++ marks) := by
  have blank (k : Line) : k.blankElement.text = k.text := by
    rw [text_eq_flatMap, k.covers_blankElement.flatMap_text]
    exact append_nil _
  have gap : Marks (i.gap.map Line.text) (i.gap.map Line.blankElement)
      (replicate i.gap.length false) := by
    rw [← length_map (f := Line.text)]
    refine .plain ?_ (forall_mem_map.2 fun k _ => k.every_blankElement (fun _ => rfl) rfl)
    induction i.gap with
    | nil => rfl
    | cons k ks ih => rw [map_cons, map_cons, textOf_cons, flatten_cons, blank, ih]
  rw [all, map_append, i.elements_eq_append_node]
  exact gap.append (marks_node marked h)

/-- The elements of the items of a list have the marks of the lines inside the items. -/
theorem ListItem.marks_zipWith {items : List ListItem} (marked : ∀ i ∈ items, i.WellMarked)
    {inner : List (List Element)}
    (h : Forall₂ (fun i es => Marks (i.inner.map Line.text) es (Block.joined i.inner))
      items inner) :
    Marks ((items.flatMap all).map Line.text) (zipWith elements items inner).flatten
      (zipWith (fun i joined => replicate i.gap.length false ++ joined) items
        (items.map fun i => Block.joined i.inner)).flatten := by
  induction h with
  | nil => exact .nil
  | @cons i es items inner first _ ih =>
    obtain ⟨here, behind⟩ := forall_mem_cons.1 marked
    rw [flatMap_cons, map_append]
    exact (marks_elements here first).append (ih behind)

namespace Block

variable {l : Line} {ls : List Line}

/-- A block that is neither a container nor a paragraph has no marks. -/
theorem marks_of_isContainer {b : Block} (leaf : b.isContainer = false) (marked : b.WellMarked)
    (kind : b.kind ≠ .paragraph) {e : Element} (he : b.element [] = .ok e) :
    Marks (b.lines.map Line.text) [e] (replicate b.lines.length false) := by
  have none : b.inside = [] := by
    cases b with
    | quote | list => cases leaf
    | _ => rfl
  have text : textOf [e] = (b.lines.map Line.text).flatten := by
    rw [textOf_cons, textOf_nil, append_nil, text_eq_flatMap,
      (covers_element marked (none ▸ .nil) he).flatMap_text, Line.textOf, flatMap_def]
  rw [← length_map (f := Line.text)]
  refine .plain text (forall_mem_singleton.2 ?_)
  obtain ⟨es, rfl⟩ := kind_element he
  refine .node ?_ fun x hx => ?_
  · simpa [isParagraph, Element.kind] using fun _ => kind
  · exact (every_isPart_children leaf he x hx).imp fun _ part => part.isParagraph_eq_false

/-- The lines of a paragraph are not blank. -/
theorem not_isBlank_of_paragraph {p : Paragraph} (h : (next l ls).1 = paragraph p) :
    ∀ k ∈ p.lines, k.isBlank = false := by
  obtain ⟨opens, -, rfl⟩ := paragraph_of_next h
  refine forall_mem_cons.2 ⟨(Line.opener_eq_text_iff.1 opens).1, fun k hk => ?_⟩
  exact Paragraph.isBlank_eq_false (mem_takeWhile_imp hk)

/-- The element of a block has the marks of its lines. -/
theorem marks_element {inner : List (List Element)} {e : Element}
    (hinner : Forall₂ (fun ks es => Marks (ks.map Line.text) es (joined ks))
      (next l ls).1.inside inner)
    (he : (next l ls).1.element inner = .ok e) :
    Marks ((next l ls).1.lines.map Line.text) [e]
      ((next l ls).1.joinedWith ((next l ls).1.inside.map joined)) := by
  have marked := (lines_next (Prod.eta (next l ls)).symm).1
  have leaf {b : Block} (leaf : b.isContainer = false) (kind : b.kind ≠ .paragraph)
      (eq : (next l ls).1 = b) (same : b.joinedWith [] = replicate b.lines.length false)
      (none : b.inside = []) :
      Marks (b.lines.map Line.text) [e] (b.joinedWith (b.inside.map joined)) := by
    subst eq
    rw [none] at hinner ⊢
    obtain rfl := forall₂_nil_left_iff.1 hinner
    rw [map_nil, same]
    exact marks_of_isContainer leaf marked kind he
  cases eq : (next l ls).1 with
  | quote ks =>
    rw [eq] at hinner he
    obtain ⟨es, rfl, hes⟩ := exists_inner_of_quote hinner
    cases he
    have node := hes.node (k := .blockQuote) (by decide)
    simpa [joinedWith, inside, lines] using node
  | list items =>
    rw [eq] at hinner he marked
    cases he
    have node := (ListItem.marks_zipWith marked (forall₂_map_left_iff.1 hinner)).node
      (k := .list) (by decide)
    rw [inside, map_map]
    exact node
  | paragraph p =>
    obtain ⟨lines, underline?⟩ := p
    cases underline? with
    | none =>
      have filled : ∀ t ∈ lines.map Line.text, t ≠ [] :=
        forall_mem_map.2 fun k hk => Line.text_ne_nil (not_isBlank_of_paragraph eq k hk)
      obtain ⟨-, -, read⟩ := paragraph_of_next eq
      rw [eq] at hinner he marked
      obtain rfl := forall₂_nil_left_iff.1 hinner
      have text := (covers_element marked .nil he).flatMap_text
      have parts := every_isPart_children rfl he
      cases he
      rw [← text_eq_flatMap, Line.textOf, flatMap_def] at text
      rw [Block.lines, Paragraph.all, Option.toList_none, append_nil] at text ⊢
      obtain rfl : lines = _ := congrArg Paragraph.lines read
      have whole := Marks.paragraph text
        (fun x hx => (parts x hx).imp fun _ part => part.isParagraph_eq_false) filled
      rw [length_map] at whole
      exact whole
    | some u => exact leaf rfl (by simp [kind]) eq rfl rfl
  | literal k => exact absurd eq (next_ne_literal l ls k)
  | _ => exact leaf rfl (by simp [kind]) eq rfl rfl

/-- In the tree, the joined lines are those that lie inside a paragraph which begins in front of
them. -/
theorem marks_of_elementsOf {lines : List Line} {es : List Element}
    (h : elementsOf lines = .ok es) : Marks (lines.map Line.text) es (joined lines) := by
  -- over the blocks in order; inside a container the marks are those of its lines
  refine elementsOf_induction (P := fun lines es => Marks (lines.map Line.text) es (joined lines))
    ?_ ?_ h
  · rw [joined_nil]
    exact .nil
  · intro l ls b rest inner first others hnext hinner he ih
    obtain rfl : b = (next l ls).1 := by rw [hnext]
    obtain rfl : rest = (next l ls).2 := by rw [hnext]
    -- a quote moves its markers aside, which leaves the text of its lines as it was
    have faces := (lines_next hnext).2
    have texts : (next l ls).1.lines.map Line.text ++ (next l ls).2.map Line.text =
        (l :: ls).map Line.text := by
      have text : Line.text =
          (fun face : Text × LineEnding => face.1 ++ face.2.text) ∘ Line.face := rfl
      rw [text, ← map_map, ← map_map, ← map_map, ← map_append, faces]
    rw [joined_cons, ← texts]
    exact (marks_element hinner he).append ih

end Block

/-! ## Blank lines -/

/-- The marked lines are not blank, and neither are the lines in front of them. -/
structure MarksFilled (lines : List Line) (marks : List Bool) : Prop where
  length : marks.length = lines.length
  filled : ∀ n, marks[n]? = some true → ∃ m l k, n = m + 1 ∧ lines[m]? = some l ∧
    lines[m + 1]? = some k ∧ l.isBlank = false ∧ k.isBlank = false

namespace MarksFilled

variable {lines lines' : List Line} {marks marks' : List Bool}

theorem nil : MarksFilled [] [] := ⟨rfl, nofun⟩

theorem append (h : MarksFilled lines marks) (h' : MarksFilled lines' marks') :
    MarksFilled (lines ++ lines') (marks ++ marks') := by
  refine ⟨by simp [h.length, h'.length], fun n marked => ?_⟩
  by_cases inFront : n < lines.length
  · rw [getElem?_append_left (h.length ▸ inFront)] at marked
    obtain ⟨m, l, k, rfl, hl, hk, filled⟩ := h.filled n marked
    refine ⟨m, l, k, rfl, ?_, ?_, filled⟩
    · rwa [getElem?_append_left (by omega)]
    · rwa [getElem?_append_left inFront]
  · rw [getElem?_append_right (h.length ▸ Nat.not_lt.1 inFront), h.length] at marked
    obtain ⟨m, l, k, eq, hl, hk, filled⟩ := h'.filled _ marked
    refine ⟨lines.length + m, l, k, by omega, ?_, ?_, filled⟩
    · rwa [getElem?_append_right (by omega), Nat.add_sub_cancel_left]
    · rwa [Nat.add_assoc, getElem?_append_right (by omega), Nat.add_sub_cancel_left]

theorem of_not_mem (length : marks.length = lines.length) (none : true ∉ marks) :
    MarksFilled lines marks :=
  ⟨length, fun _ marked => absurd (mem_of_getElem? marked) none⟩

theorem of_forall {l : Line} (h : ∀ k ∈ l :: lines, k.isBlank = false) :
    MarksFilled (l :: lines) (false :: replicate lines.length true) := by
  refine ⟨by simp, fun n marked => ?_⟩
  cases n with
  | zero => cases marked
  | succ m =>
    have within : m + 1 < (l :: lines).length := by
      simpa using (List.getElem?_eq_some_iff.1 marked).1
    exact ⟨m, _, _, rfl, getElem?_eq_getElem (Nat.lt_of_succ_lt within),
      getElem?_eq_getElem within, h _ (getElem_mem _), h _ (getElem_mem _)⟩

/-- A part of a line that is not blank is a part of a line that is not blank. -/
theorem of_forall₂ (h : MarksFilled lines marks)
    (parts : Forall₂ (fun k l : Line => l.isBlank = true → k.isBlank = true) lines lines') :
    MarksFilled lines' marks := by
  have length := parts.length_eq
  refine ⟨h.length.trans length, fun n marked => ?_⟩
  have whole {n : Nat} {k : Line} (hk : lines[n]? = some k) (filled : k.isBlank = false) :
      ∃ l, lines'[n]? = some l ∧ l.isBlank = false := by
    obtain ⟨within, rfl⟩ := List.getElem?_eq_some_iff.1 hk
    refine ⟨lines'[n], getElem?_eq_getElem (length ▸ within), Bool.eq_false_iff.2 fun blank => ?_⟩
    have blank := (forall₂_iff_get.1 parts).2 n within (length ▸ within) blank
    exact absurd (blank.symm.trans filled) (by decide)
  obtain ⟨m, l, k, rfl, hl, hk, first, second⟩ := h.filled n marked
  obtain ⟨l', hl', first⟩ := whole hl first
  obtain ⟨k', hk', second⟩ := whole hk second
  exact ⟨m, l', k', rfl, hl', hk', first, second⟩

theorem flatten {α : Type} {f : α → List Line} {g : α → List Bool} {xs : List α}
    (h : ∀ x ∈ xs, MarksFilled (f x) (g x)) :
    MarksFilled (xs.flatMap f) (xs.map g).flatten := by
  induction xs with
  | nil => exact nil
  | cons x xs ih =>
    obtain ⟨first, others⟩ := forall_mem_cons.1 h
    rw [flatMap_cons, map_cons, flatten_cons]
    exact first.append (ih others)

end MarksFilled

theorem Text.isBlank_drop {t : Text} (h : Text.isBlank t = true) (n : Nat) :
    Text.isBlank (t.drop n) = true :=
  all_eq_true.2 fun c hc => all_eq_true.1 h c (mem_of_mem_drop hc)

/-- The lines inside an item are parts of its lines. -/
theorem ListItem.forall₂_inner (i : ListItem) :
    Forall₂ (fun k l : Line => l.isBlank = true → k.isBlank = true) i.inner (i.first :: i.rest) :=
  .cons (fun blank => Text.isBlank_drop blank _)
    (forall₂_map_left_iff.2 (forall₂_same.2 fun _ _ blank => Text.isBlank_drop blank _))

/-- Which lines of an item, and of the blank lines in front of it, are joined. -/
def ListItem.joined (i : ListItem) : List Bool :=
  replicate i.gap.length false ++ Block.joined i.inner

namespace Block

theorem joinedWith_list (items : List ListItem) :
    (list items).joinedWith ((list items).inside.map joined) =
      (items.map ListItem.joined).flatten := by
  rw [joinedWith, inside, map_map, zipWith_map_right, zipWith_self]
  rfl

/-- The first block takes lines from the front, and only those that are not blank are marked. -/
theorem marksFilled_joinedWith {l : Line} {ls : List Line}
    (inside : ∀ ks ∈ (next l ls).1.inside, MarksFilled ks (joined ks)) :
    ∃ front, front ++ (next l ls).2 = l :: ls ∧
      MarksFilled front ((next l ls).1.joinedWith ((next l ls).1.inside.map joined)) := by
  have leaf (same : (next l ls).1.joinedWith ((next l ls).1.inside.map joined) =
      replicate (next l ls).1.lines.length false) :
      ∃ front, front ++ (next l ls).2 = l :: ls ∧
        MarksFilled front ((next l ls).1.joinedWith ((next l ls).1.inside.map joined)) := by
    have whole : next l ls = ((next l ls).1, (next l ls).2) := rfl
    obtain ⟨front, eq⟩ := (suffix_and_lighter_of_next whole).1.trans (suffix_cons l ls)
    -- only the number of lines matters, since none is marked
    have length := congrArg List.length (lines_next whole).2
    rw [← eq, length_append, length_map, length_map, length_map, length_append] at length
    refine ⟨front, eq, .of_not_mem ?_ ?_⟩
    · rw [same, length_replicate]
      exact Nat.add_right_cancel length
    · simp [same]
  cases eq : (next l ls).1 with
  | quote ks =>
    obtain ⟨opens, rfl⟩ := quote_of_next eq
    refine ⟨l :: ls.takeWhile Quote.isQuoted, ?_, ?_⟩
    · rw [next_eq_opened, opens, cons_append]
      exact congrArg (l :: ·) takeWhile_append_dropWhile
    · rw [eq] at inside
      have own := (inside _ (mem_singleton.2 rfl)).of_forall₂
        (forall₂_map_left_iff.2 (forall₂_same.2 fun _ _ blank => Text.isBlank_drop blank _))
      simpa [joinedWith, Block.inside] using own
  | list items =>
    obtain ⟨m, opens, rfl⟩ := list_of_next eq
    have whole := (ListItem.all_sequence [] ls (Line.marker_of_opener opens)).2
    refine ⟨(ListItem.sequence [] m l ls).1.flatMap ListItem.all, ?_, ?_⟩
    · rw [next_eq_opened, opens]
      exact whole
    · rw [joinedWith_list]
      refine .flatten (f := ListItem.all) fun i hi => ?_
      refine .append (.of_not_mem length_replicate (by simp)) (.of_forall₂ ?_ i.forall₂_inner)
      exact inside _ (by rw [eq]; exact mem_map_of_mem hi)
  | paragraph p =>
    obtain ⟨lines, underline?⟩ := p
    cases underline? with
    | none =>
      obtain ⟨opens, noTable, read⟩ := paragraph_of_next eq
      have filled := not_isBlank_of_paragraph eq
      obtain ⟨own, plain⟩ := Paragraph.mk.inj read
      refine ⟨lines, ?_, ?_⟩
      · rw [next_of_text opens noTable, Paragraph.begin_snd_of_underline? plain.symm, own,
          cons_append, takeWhile_append_dropWhile]
      · rw [own] at filled ⊢
        exact .of_forall filled
    | some u => exact eq ▸ leaf (by rw [eq]; rfl)
  | literal k => exact absurd eq (next_ne_literal l ls k)
  | _ => exact eq ▸ leaf (by rw [eq]; rfl)

theorem marksFilled_joined (lines : List Line) : MarksFilled lines (joined lines) := by
  induction lines using lines_induction with
  | nil => exact joined_nil ▸ .nil
  | cons l ls inside behind =>
    obtain ⟨front, eq, own⟩ := marksFilled_joinedWith inside
    rw [joined_cons]
    exact eq ▸ own.append behind

/-- Only lines that are not blank are joined, and only to lines that are not blank. -/
theorem not_isBlank_of_joined {lines : List Line} {n : Nat} (h : (joined lines)[n]? = some true) :
    ∃ m l k, n = m + 1 ∧ lines[m]? = some l ∧ lines[m + 1]? = some k ∧ l.isBlank = false ∧
      k.isBlank = false :=
  (marksFilled_joined lines).filled n h

end Block

end TierLint
