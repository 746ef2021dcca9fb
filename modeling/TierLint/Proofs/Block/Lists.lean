import TierLint.Proofs.Block.Locality
import TierLint.Proofs.Block.Origin
import TierLint.Proofs.Block.Shape
import TierLint.Proofs.Document.Lossless

/-!
# What a list takes of its lines

The items of a list have markers of one kind (`ListItem.kind_of_mem_sequence`), and the list ends
only where no marker of this kind follows, however many blank lines stand in front of it
(`ListItem.kind_ne_of_sequence`). Its last line is not blank, nor is that of any item
(`ListItem.filled_of_mem_sequence`).

The element of a list shows the kind of its markers (`Block.isListOf_of_tree`).
-/

set_option autoImplicit false

namespace TierLint

open Element List

/-! ## Kinds of markers -/

/-- The kind of the marker that a text is: a number ends with its delimiter. -/
def MarkerKind.ofText? (t : Text) : Option MarkerKind :=
  t.getLast?.map fun c => if c == '.' || c == ')' then .ordered c else .bullet c

theorem ListMarker.ofText?_text {content : Text} {m : ListMarker} (h : read? content = some m) :
    MarkerKind.ofText? m.text = some m.kind := by
  obtain ⟨behind, symbol, -, -⟩ := read?_cases h
  obtain ⟨-, ⟨c, bullet, kind, -, text⟩ | ⟨digits, d, -, delimiter, kind, -, text⟩⟩ :=
    symbol?_cases symbol
  · rw [kind, text]
    rcases bullet with rfl | rfl | rfl <;> rfl
  · rw [kind, text, MarkerKind.ofText?, getLast?_concat]
    rcases delimiter with rfl | rfl <;> rfl

/-- The kind of the marker that the element is. -/
def Element.ownMarkerKind? : Element → Option MarkerKind
  | .token .listMarker t => MarkerKind.ofText? t
  | _ => none

/-- The kind of the first list marker among the children. -/
def Element.markerKind? (e : Element) : Option MarkerKind := e.children.findSome? ownMarkerKind?

/-- The element is a list, with items whose markers have the kind `kind`. -/
structure Element.IsListOf (kind : MarkerKind) (e : Element) : Prop where
  list : e.isNode = true ∧ e.kind = .list
  item : ∃ i ∈ e.children, i.kind = .listItem
  marker : ∀ i ∈ e.children, i.kind = .listItem → i.markerKind? = some kind

/-- The marker of an item is the first among the item's children. -/
theorem ListItem.markerKind?_node {i : ListItem} (marked : i.WellMarked) (inside : List Element) :
    (i.node inside).markerKind? = some i.marker.kind := by
  have own : (Element.token .listMarker i.marker.text).ownMarkerKind? = some i.marker.kind :=
    ListMarker.ofText?_text marked
  have pending : i.first.pendingElements.findSome? ownMarkerKind? = none := by
    refine findSome?_eq_none_iff.2 fun x hx => ?_
    obtain ⟨run, -, rfl⟩ := mem_map.1 hx
    cases run.head? == some '>' <;> rfl
  have spaces (t : Text) : (spacing t).findSome? ownMarkerKind? = none := by
    unfold spacing tokenUnlessEmpty
    split <;> rfl
  rw [markerKind?, node, children, opening, findSome?_append, findSome?_append, findSome?_append,
    findSome?_append, pending, spaces, findSome?_singleton, own]
  rfl

/-! ## Last lines -/

/-- There is a last line, and it is not blank. -/
def Line.EndFilled (ls : List Line) : Prop := ∃ init l, ls = init ++ [l] ∧ l.isBlank = false

theorem Line.EndFilled.append {ls : List Line} (h : EndFilled ls) (front : List Line) :
    EndFilled (front ++ ls) := by
  obtain ⟨init, l, rfl, filled⟩ := h
  exact ⟨front ++ init, l, (append_assoc ..).symm, filled⟩

/-- A search across blank lines takes no blank lines at the end. -/
theorem Line.endFilled_reach (accepts : Bool → Line → Bool) (afterBlank : Bool) (ls : List Line) :
    reach accepts afterBlank ls = 0 ∨ EndFilled (ls.take (reach accepts afterBlank ls)) := by
  induction ls generalizing afterBlank with
  | nil => exact .inl rfl
  | cons l ls ih =>
    by_cases blank : l.isBlank = true
    · rw [reach_cons_of_isBlank accepts afterBlank blank]
      split
      · exact .inl rfl
      · rename_i more
        exact .inr (((ih true).resolve_left more).append [l])
    · rw [reach, if_neg blank]
      split
      · refine .inr ?_
        rw [take_succ_cons]
        rcases ih false with none | filled
        · rw [none]
          exact ⟨[], l, rfl, Bool.eq_false_iff.2 blank⟩
        · exact filled.append [l]
      · exact .inl rfl

namespace ListItem

variable {gap ls : List Line} {m : ListMarker} {first : Line}

theorem endFilled_reach (ls : List Line) (h : ListMarker.read? first.content = some m) :
    Line.EndFilled (first :: ls.take (reach m first ls)) := by
  rcases Line.endFilled_reach (continues m.contentOffset)
    (Text.isBlank (first.content.drop m.contentOffset)) ls with none | filled
  · rw [reach, none]
    exact ⟨[], first, rfl, ListMarker.isBlank_eq_false h⟩
  · exact filled.append [first]

/-! ## The items of a list -/

/-- The last line of an item is not blank. -/
theorem filled_of_mem_sequence (gap ls : List Line) (h : ListMarker.read? first.content = some m) :
    ∀ i ∈ (sequence gap m first ls).1, Line.EndFilled (i.first :: i.rest) := by
  fun_induction sequence gap m first ls with
  | case2 gap m first ls n item next behind split m' hm' same items rest eq ih =>
    rw [eq] at ih
    exact forall_mem_cons.2 ⟨endFilled_reach ls h, ih hm'⟩
  | case1 gap m first ls | case3 gap m first ls | case4 gap m first ls =>
    exact forall_mem_singleton.2 (endFilled_reach ls h)

/-- Behind their markers, items take lines behind the first one of the list. -/
theorem rest_subset_of_mem_sequence (gap : List Line) (m : ListMarker) (first : Line)
    (ls : List Line) : ∀ i ∈ (sequence gap m first ls).1, i.rest ⊆ ls := by
  fun_induction sequence gap m first ls with
  | case2 gap m first ls n item next behind split m' hm' same items rest eq ih =>
    rw [eq] at ih
    have further := (suffix_of_dropWhile_drop split).subset
    refine forall_mem_cons.2 ⟨take_subset n ls, fun i hi => ?_⟩
    exact Subset.trans (ih i hi) (Subset.trans (subset_cons_self next behind) further)
  | case1 gap m first ls | case3 gap m first ls | case4 gap m first ls =>
    exact forall_mem_singleton.2 (take_subset _ ls)

/-- All items of a list have markers of the same kind. -/
theorem kind_of_mem_sequence (gap : List Line) (m : ListMarker) (first : Line) (ls : List Line) :
    ∀ i ∈ (sequence gap m first ls).1, i.marker.kind = m.kind := by
  fun_induction sequence gap m first ls with
  | case2 gap m first ls n item next behind split m' hm' same items rest eq ih =>
    rw [eq, same] at ih
    exact forall_mem_cons.2 ⟨rfl, ih⟩
  | _ => exact forall_mem_singleton.2 rfl

/-- No marker of this kind stands in the first line behind a list that is not blank. -/
theorem kind_ne_of_sequence (gap : List Line) (m : ListMarker) (first : Line) (ls : List Line)
    {next : Line} {behind : List Line}
    (h : (sequence gap m first ls).2.dropWhile (·.isBlank) = next :: behind) {m' : ListMarker}
    (hm' : ListMarker.read? next.content = some m') : m.kind ≠ m'.kind := by
  fun_induction sequence gap m first ls with
  | case1 gap m first ls n item none =>
    rw [none] at h
    cases h
  | case2 gap m first ls n item next behind split m₁ hm₁ same items rest eq ih =>
    rw [eq, same] at ih
    exact ih h
  | case3 gap m first ls n item next behind split m₁ hm₁ other =>
    rw [split] at h
    cases h
    cases hm₁.symm.trans hm'
    exact Ne.symm other
  | case4 gap m first ls n item next behind split unmarked =>
    rw [split] at h
    cases h
    cases unmarked.symm.trans hm'

end ListItem

/-! ## The element of a list -/

namespace Block

variable {l : Line} {ls : List Line} {m : ListMarker} {e : Element}

theorem next_of_item (opens : l.opener = .item m) :
    next l ls = (list (ListItem.sequence [] m l ls).1, (ListItem.sequence [] m l ls).2) := by
  rw [next_eq_opened, opens, opened]

/-- Lists come from lines that carry a marker. -/
theorem opener_of_kind_eq_list (h : (next l ls).1.kind = .list) : ∃ m, l.opener = .item m := by
  cases eq : (next l ls).1 with
  | list items =>
    obtain ⟨m, opens, -⟩ := list_of_next eq
    exact ⟨m, opens⟩
  | paragraph p =>
    rw [eq, kind] at h
    split at h <;> cases h
  | _ =>
    rw [eq] at h
    cases h

/-- The items of a list show the kind of its first marker. -/
theorem isListOf_of_tree (opens : l.opener = .item m) (ok : (next l ls).1.tree = .ok e) :
    e.IsListOf m.kind := by
  have marker := Line.marker_of_opener opens
  have marked := (ListItem.all_sequence [] ls marker).1
  obtain ⟨inner, hinner, he⟩ := tree_eq_ok_iff.1 ok
  rw [next_of_item opens] at hinner he
  have items := forall₂_map_left_iff.1 hinner
  cases he
  refine ⟨⟨rfl, rfl⟩, ?_, fun x hx kind => ?_⟩
  · obtain ⟨back, eq⟩ := ListItem.exists_sequence_eq_cons [] m l ls
    obtain ⟨es, -, written⟩ := exists_mem_flatten_zipWith items (eq ▸ mem_cons_self)
      (f := ListItem.elements)
    exact ⟨_, written _ (mem_append_right _ (mem_singleton.2 rfl)), rfl⟩
  · obtain ⟨front, i, back, es, eq, -, hx⟩ := exists_of_mem_flatten_zipWith items hx
    have mem : i ∈ (ListItem.sequence [] m l ls).1 := eq ▸ mem_append_right _ mem_cons_self
    rw [i.elements_eq_append_node, mem_append, mem_singleton, mem_map] at hx
    rcases hx with ⟨k, -, rfl⟩ | rfl
    · cases kind
    · rw [ListItem.markerKind?_node (marked i mem),
        ListItem.kind_of_mem_sequence [] m l ls i mem]

/-- Only blank lines are blocks of this kind. -/
theorem isBlank_of_kind (h : (next l ls).1.kind = .blankLine) : l.isBlank = true := by
  by_contra filled
  have other : l.opener ≠ .blank := by
    unfold Line.opener
    rw [if_neg filled]
    repeat' split
    all_goals exact Opener.noConfusion
  rw [next_eq_opened] at h
  generalize l.opener = o at h other
  cases o with
  | blank => exact other rfl
  | text =>
    rcases opened_text_cases l ls with ⟨t, rest, -, eq⟩ | ⟨-, eq⟩
    · rw [eq] at h
      cases h
    · rw [eq, kind] at h
      split at h <;> cases h
  | _ => cases h

/-- A list behind blank lines is read from the first line that is not blank. -/
theorem exists_list_of_blankLines {lines : List Line} {between back : List Element}
    (h : elementsOf lines = .ok (between ++ e :: back)) (blank : ∀ x ∈ between, x.kind = .blankLine)
    (list : e.kind = .list) :
    ∃ k ks, lines.dropWhile (·.isBlank) = k :: ks ∧ (next k ks).1.tree = .ok e := by
  induction between generalizing lines with
  | nil =>
    obtain ⟨k, ks, rfl, ok, -⟩ := exists_cons_of_elementsOf h
    refine ⟨k, ks, dropWhile_cons_of_neg fun isBlank => ?_, ok⟩
    obtain ⟨inner, -, he⟩ := tree_eq_ok_iff.1 ok
    rw [next_of_isBlank isBlank] at he
    cases he
    cases list
  | cons x between ih =>
    obtain ⟨k, ks, rfl, ok, behind⟩ := exists_cons_of_elementsOf h
    obtain ⟨inner, -, hx⟩ := tree_eq_ok_iff.1 ok
    obtain ⟨es, rfl⟩ := kind_element hx
    obtain ⟨head, tail⟩ := forall_mem_cons.1 blank
    have isBlank := isBlank_of_kind head
    rw [next_of_isBlank isBlank] at behind
    rw [dropWhile_cons_of_pos isBlank]
    exact ih behind tail

/-- A list that only blank lines separate from the list in front of it has markers of another
kind. -/
theorem exists_kind_ne_of_blankLines (opens : l.opener = .item m) {between back : List Element}
    (behind : elementsOf (next l ls).2 = .ok (between ++ e :: back))
    (blank : ∀ x ∈ between, x.kind = .blankLine) (list : e.kind = .list) :
    ∃ kind, m.kind ≠ kind ∧ e.IsListOf kind := by
  obtain ⟨k, ks, first, ok⟩ := exists_list_of_blankLines behind blank list
  obtain ⟨inner, -, he⟩ := tree_eq_ok_iff.1 ok
  obtain ⟨es, rfl⟩ := kind_element he
  obtain ⟨m', opens'⟩ := opener_of_kind_eq_list list
  rw [next_of_item opens] at first
  have marker := Line.marker_of_opener opens'
  exact ⟨m'.kind, ListItem.kind_ne_of_sequence [] m l ls first marker, isListOf_of_tree opens' ok⟩

/-! ## Texts -/

/-- The element of a block is the text of its lines. -/
theorem text_of_tree (ok : (next l ls).1.tree = .ok e) :
    e.text = Line.textOf (next l ls).1.lines := by
  obtain ⟨inner, hinner, he⟩ := tree_eq_ok_iff.1 ok
  have split : next l ls = ((next l ls).1, (next l ls).2) := rfl
  have marked := (lines_next split).1
  have covers := covers_element marked (hinner.imp fun _ _ ok => covers_elementsOf ok) he
  rw [text_eq_flatMap, covers.flatMap_text]

/-- A list takes its lines as they are, from the one with its first marker on. -/
theorem exists_lines_eq_cons (opens : l.opener = .item m) (ls : List Line) :
    ∃ others, (next l ls).1.lines = l :: others ∧ others <+: ls := by
  have whole := (ListItem.all_sequence [] ls (Line.marker_of_opener opens)).2
  obtain ⟨back, eq⟩ := ListItem.exists_sequence_eq_cons [] m l ls
  rw [nil_append, eq, flatMap_cons] at whole
  rw [next_of_item opens, lines, eq, flatMap_cons]
  exact ⟨_, rfl, _, (cons.inj whole).2⟩

/-- A list ends with a line that is not blank. -/
theorem endFilled_of_item (opens : l.opener = .item m) (ls : List Line) :
    Line.EndFilled (next l ls).1.lines := by
  have marker := Line.marker_of_opener opens
  have filled := ListItem.filled_of_mem_sequence [] ls marker
  rw [next_of_item opens, lines]
  obtain ⟨back, eq⟩ := ListItem.exists_sequence_eq_cons [] m l ls
  have nonempty : (ListItem.sequence [] m l ls).1 ≠ [] := eq ▸ cons_ne_nil _ _
  obtain ⟨front, last, eq⟩ := (eq_nil_or_concat' _).resolve_left nonempty
  rw [eq] at filled ⊢
  have own := filled last (mem_append_right _ mem_cons_self)
  rw [flatMap_append, flatMap_singleton]
  exact (own.append last.gap).append _

end Block

/-- The node of an item is the text of its lines. -/
theorem ListItem.text_node {i : ListItem} (marked : i.WellMarked) {inside : List Element}
    (ok : Block.elementsOf i.inner = .ok inside) :
    (i.node inside).text = Line.textOf (i.first :: i.rest) := by
  -- the node does not show the blank lines in front of the item
  let alone : ListItem := { i with gap := [] }
  have covers := covers_elements (i := alone) marked (Block.covers_elementsOf ok)
  have node : alone.elements inside = [i.node inside] := rfl
  rw [node, tokensOf_cons, tokensOf_nil, append_nil] at covers
  rw [text_eq_flatMap, covers.flatMap_text]
  rfl

/-! ## Lines that are handed on -/

namespace Block

/-- The element of a list or an item was read from these lines, in the form in which the containers
around it hand them on. -/
inductive TakenFrom (lines : List Line) : Element → List Line → Prop
  | list {l : Line} {ls : List Line} {m : ListMarker} {e : Element} : LeadsTo lines (l :: ls) →
      l.opener = .item m → (next l ls).1.tree = .ok e → TakenFrom lines e (next l ls).1.lines
  | item {front : List ListItem} {i : ListItem} {inside : List Element} : i.StandsIn lines front →
      elementsOf i.inner = .ok inside → TakenFrom lines (i.node inside) (i.first :: i.rest)

namespace TakenFrom

variable {lines ks : List Line} {e : Element}

theorem text_eq (h : TakenFrom lines e ks) : e.text = Line.textOf ks := by
  cases h with
  | list _ _ ok => exact text_of_tree ok
  | item stands ok => exact ListItem.text_node stands.wellMarked ok

/-- Neither lists nor items end with blank lines. -/
theorem endFilled (h : TakenFrom lines e ks) : Line.EndFilled ks := by
  cases h with
  | list _ opens => exact endFilled_of_item opens _
  | item stands =>
    obtain ⟨l, ls, back, -, eq⟩ := stands
    obtain ⟨m, opens, items⟩ := list_of_next eq
    refine ListItem.filled_of_mem_sequence [] ls (Line.marker_of_opener opens) _ ?_
    exact items ▸ mem_append_right _ mem_cons_self

/-- The first line carries a marker. -/
theorem exists_marker (h : TakenFrom lines e ks) :
    ∃ first rest m, ks = first :: rest ∧ ListMarker.read? first.content = some m := by
  cases h with
  | list _ opens =>
    obtain ⟨others, eq, -⟩ := exists_lines_eq_cons opens _
    exact ⟨_, others, _, eq, Line.marker_of_opener opens⟩
  | item stands => exact ⟨_, _, _, rfl, stands.wellMarked⟩

/-- The lines are among some that parsing comes to. -/
theorem exists_leadsTo (h : TakenFrom lines e ks) : ∃ rest, LeadsTo lines rest ∧ ks ⊆ rest := by
  cases h with
  | list leads opens =>
    obtain ⟨others, eq, taken⟩ := exists_lines_eq_cons opens _
    exact ⟨_, leads, eq ▸ cons_subset_cons _ taken.subset⟩
  | @item front i _ stands =>
    obtain ⟨l, ls, back, leads, items⟩ := stands
    obtain ⟨m, opens, -⟩ := list_of_next items
    obtain ⟨others, eq, taken⟩ := exists_lines_eq_cons opens ls
    refine ⟨_, leads, fun k hk => cons_subset_cons _ taken.subset (eq ▸ ?_)⟩
    rw [items]
    exact mem_flatMap.2 ⟨i, mem_append_right _ mem_cons_self, mem_append_right _ hk⟩

end TakenFrom

end Block

end TierLint
