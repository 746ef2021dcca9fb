import TierLint.Proofs.Block.Lists

/-!
# Lines below quotes

A quote takes its marker off each of its lines. So behind the first line, of which everything may be
written already, the markers of all quotes around a place have been moved aside (`Block.InQuotes`):
no step of parsing puts one back, and each quote adds its own.

In the tree of some lines it is known of every element how many quotes stand around it; lists and
items are read from lines in as many quotes (`Block.Placed`).
-/

set_option autoImplicit false

namespace TierLint

open Element List

/-- Number of quotes among the elements above a place. -/
def Element.quotesAmong (above : List Element) : Nat := above.countP (·.kind == .blockQuote)

/-- Nodes of this kind have lines inside, or items. -/
def Kind.isContainer : Kind → Bool
  | .blockQuote | .list | .listItem => true
  | _ => false

namespace Block

/-! ## Markers that were moved aside -/

/-- Behind the first line, the markers of that many quotes have been moved aside. -/
def InQuotes (quotes : Nat) (lines : List Line) : Prop :=
  ∀ k ∈ lines.tail, quotes ≤ k.pending.count '>'

namespace InQuotes

variable {quotes : Nat} {lines ks : List Line}

theorem zero (lines : List Line) : InQuotes 0 lines := fun _ _ => Nat.zero_le _

theorem of_subset (h : InQuotes quotes lines) (sub : ks.tail ⊆ lines.tail) : InQuotes quotes ks :=
  fun k hk => h k (sub hk)

theorem of_suffix (h : InQuotes quotes lines) (suffix : ks <:+ lines) : InQuotes quotes ks := by
  cases lines with
  | nil => exact suffix_nil.1 suffix ▸ h
  | cons l ls =>
    rcases suffix_cons_iff.1 suffix with rfl | below
    · exact h
    · exact h.of_subset (Subset.trans (tail_sublist ks).subset below.subset)

/-- A quote adds its marker. -/
theorem quote (h : InQuotes quotes lines) (quoted : ∀ k ∈ lines, Quote.isQuoted k = true) :
    InQuotes (quotes + 1) (lines.map Quote.strip) := by
  rw [InQuotes, ← map_tail]
  refine forall_mem_map.2 fun k hk => ?_
  obtain ⟨gap, taken, -, -⟩ := Quote.take_markerLength (quoted k (mem_of_mem_tail hk))
  show quotes + 1 ≤ (k.pending ++ k.content.take (Quote.markerLength k)).count '>'
  rw [taken, count_append, count_append, count_cons_self]
  have before := h k hk
  omega

/-- An item adds indentation. -/
theorem inner {i : ListItem} (h : InQuotes quotes (i.first :: i.rest)) :
    InQuotes quotes i.inner := by
  refine forall_mem_map.2 fun k hk => ?_
  show quotes ≤ (k.pending ++ k.content.take _).count '>'
  rw [count_append]
  exact Nat.le_add_right_of_le (h k hk)

end InQuotes

/-! ## Places -/

variable {lines rest ks : List Line} {quotes : Nat} {e : Element}

/-- Where an element stands in the tree of some lines, below that many quotes. -/
inductive Placed (lines : List Line) (quotes : Nat) : Element → Prop
  /-- A block that parsing comes to. -/
  | block {l : Line} {ls : List Line} {e : Element} : LeadsTo lines (l :: ls) →
      InQuotes quotes (l :: ls) → (next l ls).1.tree = .ok e → Placed lines quotes e
  /-- An item of a list that parsing comes to. -/
  | item {front : List ListItem} {i : ListItem} {inside : List Element} : i.StandsIn lines front →
      InQuotes quotes (i.first :: i.rest) → elementsOf i.inner = .ok inside →
      Placed lines quotes (i.node inside)
  /-- Something without lines inside. -/
  | plain {e : Element} :
      Every (fun e => e.isNode = true → e.kind.isContainer = false) e → Placed lines quotes e

theorem plain_of_isPart (h : Every IsPart e) :
    Every (fun e => e.isNode = true → e.kind.isContainer = false) e := by
  refine h.imp fun e part node => ?_
  have part := part node
  generalize e.kind = k at part ⊢
  cases k <;> first | rfl | cases part

theorem Placed.of_isPart (h : Every IsPart e) : Placed lines quotes e := .plain (plain_of_isPart h)

/-- The elements of lines that parsing comes to stand in as many quotes as the lines. -/
theorem placed_of_elementsOf (leads : LeadsTo lines rest) (quoted : InQuotes quotes rest)
    {es : List Element} (h : elementsOf rest = .ok es) : ∀ e ∈ es, Placed lines quotes e := by
  intro e he
  obtain ⟨front, back, rfl⟩ := append_of_mem he
  obtain ⟨l, ls, onward, suffix, ok, -⟩ := exists_block_of_append h
  exact .block (leads.trans onward) (quoted.of_suffix suffix) ok

/-- What stands inside a block stands in as many quotes, and in one more if the block is a quote. -/
theorem placed_inside_block {l : Line} {ls : List Line} {k : Kind} {inside : List Element}
    (leads : LeadsTo lines (l :: ls)) (quoted : InQuotes quotes (l :: ls))
    (ok : (next l ls).1.tree = .ok (.node k inside)) :
    ∀ e ∈ inside, Placed lines (quotes + if k == .blockQuote then 1 else 0) e := by
  obtain ⟨inner, hinner, he⟩ := tree_eq_ok_iff.1 ok
  cases eq : (next l ls).1 with
  | quote ks =>
    have further : LeadsTo lines ks := leads.trans (.inside (eq ▸ mem_singleton.2 rfl))
    obtain ⟨opens, rfl⟩ := quote_of_next eq
    rw [eq] at hinner he
    obtain ⟨es, rfl, hes⟩ := exists_inner_of_quote hinner
    cases he
    rw [flatten_singleton]
    -- the lines inside are the quoted lines without their markers
    refine placed_of_elementsOf further (InQuotes.quote ?_ ?_) hes
    · exact quoted.of_subset (takeWhile_sublist _).subset
    · exact forall_mem_cons.2 ⟨Line.isQuoted_of_opener opens, fun _ => mem_takeWhile_imp⟩
  | list items =>
    rw [eq] at hinner he
    cases he
    intro e he
    obtain ⟨front, i, back, es, rfl, hes, he⟩ :=
      exists_of_mem_flatten_zipWith (forall₂_map_left_iff.1 hinner) he
    rw [i.elements_eq_append_node, mem_append, mem_singleton, mem_map] at he
    -- the blank lines in front of an item hold nothing, the item has lines of the list itself
    rcases he with ⟨k, -, rfl⟩ | rfl
    · exact .plain (.node (fun _ => rfl) fun x hx =>
        plain_of_isPart (every_isPart_blankElement k x hx))
    · obtain ⟨m, -, sequence⟩ := list_of_next eq
      refine .item ⟨l, ls, back, leads, eq⟩ (quoted.of_subset ?_) hes
      refine ListItem.rest_subset_of_mem_sequence [] m l ls i ?_
      exact sequence ▸ mem_append_right _ mem_cons_self
  | _ =>
    rw [eq] at he
    exact fun x hx => .of_isPart (every_isPart_children rfl he x hx)

/-- What stands inside an element stands in as many quotes, and in one more if the element is a
quote. -/
theorem Placed.onward {above : List Element} {k : Kind} {inside : List Element}
    (h : Placed lines (quotesAmong above) (.node k inside)) :
    ∀ e ∈ inside, Placed lines (quotesAmong (above ++ [.node k inside])) e := by
  rw [quotesAmong, countP_append, countP_singleton]
  generalize made : Element.node k inside = e at h
  cases h with
  | block leads quoted ok =>
    cases made
    exact placed_inside_block leads quoted ok
  | @item front i es stands quoted ok =>
    cases made
    obtain ⟨l, ls, back, leads, eq⟩ := stands
    have further : LeadsTo lines i.inner := by
      refine leads.trans (.inside ?_)
      rw [eq]
      exact mem_map_of_mem (mem_append_right _ mem_cons_self)
    refine forall_mem_append.2 ⟨fun x hx => ?_, placed_of_elementsOf further quoted.inner ok⟩
    exact .plain (i.every_opening (fun node => by cases node) x hx)
  | plain plain =>
    cases made
    exact fun x hx => .plain ((every_node.1 plain).2 x hx)

/-- Lists and items are read from lines in as many quotes as stand around them. -/
theorem Placed.exists_takenFrom (h : Placed lines quotes e) (node : e.isNode = true)
    (hk : e.kind = .list ∨ e.kind = .listItem) :
    ∃ ks, TakenFrom lines e ks ∧ InQuotes quotes ks := by
  cases h with
  | block leads quoted ok =>
    obtain ⟨inner, -, he⟩ := tree_eq_ok_iff.1 ok
    obtain ⟨es, rfl⟩ := kind_element he
    obtain ⟨m, opens⟩ := opener_of_kind_eq_list (hk.resolve_right (kind_ne_listItem _))
    obtain ⟨others, eq, taken⟩ := exists_lines_eq_cons opens _
    refine ⟨_, .list leads opens ok, quoted.of_subset ?_⟩
    rw [eq]
    exact taken.subset
  | item stands quoted ok => exact ⟨_, .item stands ok, quoted⟩
  | plain plain =>
    have other := plain.self node
    rcases hk with hk | hk <;> rw [hk] at other <;> cases other

end Block

end TierLint
