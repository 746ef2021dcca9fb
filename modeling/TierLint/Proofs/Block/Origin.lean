import Mathlib.Logic.Relation
import TierLint.Proofs.Block.Every
import TierLint.Proofs.Block.Opener
import TierLint.Proofs.Document.Alike

/-!
# Where the nodes of a tree come from

Parsing goes from lines to those behind their first block and to those inside it, step by step
(`Block.LeadsTo`). What a step keeps, all lines have that parsing comes to.

The nodes of a tree are accounted for by these lines (`Block.Origin`). Each is the element of a
block that parsing comes to, an item of such a list or a blank line in front of it, or something
that a block which is no container is made of.
-/

set_option autoImplicit false

namespace TierLint

open Element List

namespace Block

/-! ## Steps of parsing -/

/-- One step of parsing: to the lines behind the first block, or to lines inside it. -/
inductive Step : List Line → List Line → Prop
  | behind (l : Line) (ls : List Line) : Step (l :: ls) (next l ls).2
  | inside {l : Line} {ls inner : List Line} :
      inner ∈ (next l ls).1.inside → Step (l :: ls) inner

/-- Parsing the lines comes to these lines. -/
def LeadsTo : List Line → List Line → Prop := Relation.ReflTransGen Step

namespace LeadsTo

variable {lines rest further : List Line}

theorem refl (lines : List Line) : LeadsTo lines lines := Relation.ReflTransGen.refl

theorem trans (h : LeadsTo lines rest) (h' : LeadsTo rest further) : LeadsTo lines further :=
  Relation.ReflTransGen.trans h h'

theorem behind (l : Line) (ls : List Line) : LeadsTo (l :: ls) (next l ls).2 :=
  .single (.behind l ls)

theorem inside {l : Line} {ls inner : List Line} (h : inner ∈ (next l ls).1.inside) :
    LeadsTo (l :: ls) inner :=
  .single (.inside h)

/-- What each step keeps is kept all along. -/
theorem invariant {P : List Line → Prop} (preserves : ∀ {ls ks}, Step ls ks → P ls → P ks)
    (h : LeadsTo lines rest) (initial : P lines) : P rest := by
  induction h with
  | refl => exact initial
  | tail _ step ih => exact preserves step ih

/-- What holds of each line, and still holds when a container moves a part of the line aside, holds
of all lines that parsing comes to. -/
theorem forall_mem {P : Line → Prop}
    (quote : ∀ {l : Line}, Quote.isQuoted l = true → P l → P (Quote.strip l))
    (first : ∀ {l : Line} (n : Nat), P l → P (l.consume n))
    (others : ∀ {l : Line} (offset : Nat), P l → P (ListItem.strip offset l))
    (leads : LeadsTo lines rest) (h : ∀ l ∈ lines, P l) : ∀ l ∈ rest, P l := by
  refine leads.invariant (P := fun lines => ∀ l ∈ lines, P l) (fun {lines ks} step h => ?_) h
  cases step with
  | behind l ls =>
    intro k hk
    exact h k (mem_cons_of_mem l ((suffix_next l ls).subset hk))
  | @inside l ls ks mem =>
    cases eq : (next l ls).1 with
    | quote lines =>
      obtain ⟨opens, rfl⟩ := quote_of_next eq
      rw [eq] at mem
      obtain rfl := mem_singleton.1 mem
      refine forall_mem_map.2 fun k hk => ?_
      rcases mem_cons.1 hk with rfl | hk
      · exact quote (Line.isQuoted_of_opener opens) (h k mem_cons_self)
      · have mem := mem_cons_of_mem l ((takeWhile_sublist _).subset hk)
        exact quote (mem_takeWhile_imp hk) (h k mem)
    | list items =>
      obtain ⟨m, opens, rfl⟩ := list_of_next eq
      have whole := (ListItem.all_sequence [] ls (Line.marker_of_opener opens)).2
      rw [nil_append] at whole
      rw [eq] at mem
      obtain ⟨i, hi, rfl⟩ := mem_map.1 mem
      have own : ∀ k ∈ i.first :: i.rest, P k := by
        intro k hk
        refine h k (whole ▸ mem_append_left _ (mem_flatMap.2 ⟨i, hi, ?_⟩))
        exact mem_append_right _ hk
      refine forall_mem_cons.2 ⟨first _ (own _ mem_cons_self), forall_mem_map.2 fun k hk => ?_⟩
      exact others _ (own k (mem_cons_of_mem _ hk))
    | _ =>
      rw [eq] at mem
      cases mem

end LeadsTo

end Block

/-! ## Blocks and items -/

/-- What an item writes in front of the elements of its lines: what was moved aside, the marker and
the blanks around it. -/
def ListItem.opening (i : ListItem) : List Element :=
  let behindIndent := i.first.content.drop i.marker.indent
  i.first.pendingElements
    ++ spacing (i.first.content.take i.marker.indent)
    ++ [.token .listMarker i.marker.text]
    ++ spacing ((behindIndent.drop i.marker.text.length).take i.marker.gap)

/-- The node for an item, given the elements of its lines. -/
def ListItem.node (i : ListItem) (inside : List Element) : Element :=
  .node .listItem (i.opening ++ inside)

theorem ListItem.elements_eq_append_node (i : ListItem) (inside : List Element) :
    i.elements inside = i.gap.map Line.blankElement ++ [i.node inside] := rfl

/-- The item belongs to a list that parsing the lines comes to, behind the items `front`. -/
def ListItem.StandsIn (lines : List Line) (front : List ListItem) (i : ListItem) : Prop :=
  ∃ l ls back, Block.LeadsTo lines (l :: ls) ∧ (Block.next l ls).1 = .list (front ++ i :: back)

theorem ListItem.StandsIn.wellMarked {lines : List Line} {front : List ListItem} {i : ListItem}
    (h : i.StandsIn lines front) : i.WellMarked := by
  obtain ⟨l, ls, back, -, eq⟩ := h
  obtain ⟨m, opens, items⟩ := Block.list_of_next eq
  exact (all_sequence [] ls (Line.marker_of_opener opens)).1 i
    (items ▸ mem_append_right front mem_cons_self)

namespace Block

/-- The kind of a block's element. -/
def kind : Block → Kind
  | blank _ => .blankLine
  | fencedCode _ | indentedCode _ => .codeBlock
  | atxHeading _ => .heading
  | thematicBreak _ => .thematicBreak
  | quote _ => .blockQuote
  | list _ => .list
  | html _ => .htmlBlock
  | table _ => .table
  | paragraph p => if p.underline?.isSome then .heading else .paragraph
  | literal _ => .paragraph

/-- Paragraphs are running text without an underline. -/
theorem kind_eq_paragraph_iff {l : Line} {ls : List Line} :
    (next l ls).1.kind = .paragraph ↔
      l.opener = .text ∧ Table.read? (l :: ls) = none ∧
        (Paragraph.begin l ls).1.underline? = none := by
  constructor
  · intro h
    cases eq : (next l ls).1 with
    | paragraph p =>
      obtain ⟨opens, noTable, rfl⟩ := paragraph_of_next eq
      refine ⟨opens, noTable, ?_⟩
      rw [eq, kind] at h
      cases plain : (Paragraph.begin l ls).1.underline? with
      | none => rfl
      | some u =>
        rw [plain] at h
        cases h
    | literal k => exact absurd eq (next_ne_literal l ls k)
    | _ =>
      rw [eq] at h
      cases h
  · rintro ⟨opens, noTable, plain⟩
    rw [next_of_text opens noTable, kind, plain]
    rfl

theorem kind_ne_listItem (b : Block) : b.kind ≠ .listItem := by
  cases b with
  | paragraph p =>
    rw [kind]
    split <;> exact Kind.noConfusion
  | _ => exact Kind.noConfusion

theorem kind_element {b : Block} {inner : List (List Element)} {e : Element}
    (h : b.element inner = .ok e) : ∃ es, e = .node b.kind es := by
  cases b with
  | atxHeading heading =>
    rw [element, AtxHeading.element] at h
    split at h <;> cases h
    exact ⟨_, rfl⟩
  | paragraph p =>
    cases h
    rw [Paragraph.element, kind]
    cases p.underline? <;> exact ⟨_, rfl⟩
  | _ =>
    cases h
    exact ⟨_, rfl⟩

theorem isParagraph_eq_true_iff {b : Block} {e : Element} {inner : List (List Element)}
    (he : b.element inner = .ok e) : e.isParagraph = true ↔ b.kind = .paragraph := by
  obtain ⟨es, rfl⟩ := kind_element he
  simp [isParagraph, isNode, Element.kind]

theorem tree_eq_ok_iff {b : Block} {e : Element} :
    b.tree = .ok e ↔
      ∃ inner, Forall₂ (fun ls es => elementsOf ls = .ok es) b.inside inner ∧
        b.element inner = .ok e := by
  rw [tree, bind_eq_ok_iff]
  exact exists_congr fun inner => and_congr_left' mapM_eq_ok_iff

/-- The block has lines inside that are parsed on their own. -/
def isContainer : Block → Bool
  | quote _ | list _ => true
  | _ => false

end Block

/-! ## Parts of blocks -/

/-- The element is a token, or something that running text and the blocks that are no containers are
made of. -/
def Element.IsPart (e : Element) : Prop := e.isNode = true → e.kind.isPart = true

namespace Element.IsPart

theorem token {k : Kind} {t : Text} : IsPart (.token k t) := fun node => by cases node

theorem node {k : Kind} {es : List Element} (hk : k.isPart = true) (_ : k.isSought = false) :
    IsPart (.node k es) :=
  fun _ => hk

theorem strong {t : Text} {es : List Element} (_ : t ≠ []) :
    IsPart (.node .strong (.token .strongMarker t :: es)) :=
  fun _ => rfl

end Element.IsPart

theorem Element.IsPart.isParagraph_eq_false {e : Element} (h : e.IsPart) :
    e.isParagraph = false := by
  refine Bool.eq_false_iff.2 fun paragraph => ?_
  obtain ⟨node, kind⟩ := Bool.and_eq_true_iff.1 paragraph
  have part := h node
  rw [beq_iff_eq.1 kind] at part
  cases part

/-- What an item writes in front of the elements of its lines is tokens. -/
theorem ListItem.every_opening {P : Element → Prop}
    (token : ∀ {k : Kind} {t : Text}, P (.token k t)) (i : ListItem) : ∀ e ∈ i.opening, Every P e := by
  have spaces (t : Text) : ∀ x ∈ spacing t, Every P x := every_tokenUnlessEmpty fun _ => token
  exact forall_mem_append.2 ⟨forall_mem_append.2 ⟨forall_mem_append.2
    ⟨i.first.every_pendingElements fun _ => token, spaces _⟩,
    forall_mem_singleton.2 (.token token)⟩, spaces _⟩

namespace Block

/-- Blocks that are no containers are made of parts. -/
theorem every_isPart_children {b : Block} (leaf : b.isContainer = false)
    {inner : List (List Element)} {e : Element} (h : b.element inner = .ok e) :
    ∀ x ∈ e.children, Every IsPart x := by
  have plain {k : Kind} {t : Text} (_ : k.isProse = false) : IsPart (.token k t) := .token
  have filled {k : Kind} {t : Text} (_ : t ≠ []) : IsPart (.token k t) := .token
  have spaces (t : Text) : ∀ x ∈ spacing t, Every IsPart x := every_tokenUnlessEmpty fun _ => .token
  have trims {k : Kind} (t : Text) : ∀ x ∈ trimmed k t, Every IsPart x :=
    every_trimmed (fun _ => .token) (fun _ _ => .token) t
  have text (ls : List Line) : ∀ x ∈ ls.flatMap Paragraph.lineElements, Every IsPart x := by
    intro x hx
    obtain ⟨l, -, hx⟩ := mem_flatMap.1 hx
    exact Paragraph.every_lineElements plain filled IsPart.node IsPart.strong l x hx
  cases b with
  | quote | list => cases leaf
  | blank l | literal l =>
    cases h
    exact l.every_elements plain fun _ => filled
  | fencedCode code =>
    cases h
    exact code.every_children plain filled IsPart.node
  | atxHeading heading =>
    rw [element, AtxHeading.element] at h
    split at h
    · cases h
      refine heading.line.every_elementsWith plain (forall_mem_append.2 ⟨forall_mem_append.2
        ⟨spaces _, forall_mem_singleton.2 (.node (.node rfl rfl) ?_)⟩, ?_⟩)
      · exact forall_mem_singleton.2 (.token .token)
      · exact AtxHeading.every_bodyElements plain filled IsPart.node IsPart.strong _
    · cases h
  | thematicBreak l =>
    cases h
    exact l.every_elementsWith plain (trims _)
  | html ls =>
    cases h
    exact Line.every_flatMap_elements plain ls fun _ => filled
  | table t =>
    cases h
    exact t.every_children plain filled IsPart.node IsPart.strong
  | indentedCode ls =>
    cases h
    exact IndentedCode.every_children plain filled IsPart.node ls
  | paragraph p =>
    obtain ⟨lines, underline?⟩ := p
    cases underline? with
    | none =>
      cases h
      exact text lines
    | some u =>
      cases h
      refine forall_mem_cons.2 ⟨.node (.node rfl rfl) (text lines), forall_mem_singleton.2 ?_⟩
      exact .node (.node rfl rfl) (u.every_elementsWith plain (trims _))

theorem every_isPart_blankElement (l : Line) : ∀ x ∈ l.blankElement.children, Every IsPart x :=
  every_isPart_children rfl (rfl : (blank l).element [] = .ok l.blankElement)

/-! ## Origins -/

/-- Where an element in the tree of some lines comes from. -/
inductive Origin (lines : List Line) : Element → Prop
  /-- A block that parsing comes to. -/
  | block {l : Line} {ls : List Line} {e : Element} :
      LeadsTo lines (l :: ls) → (next l ls).1.tree = .ok e → Origin lines e
  /-- An item of a list that parsing comes to. -/
  | item {front : List ListItem} {i : ListItem} {inside : List Element} :
      i.StandsIn lines front → elementsOf i.inner = .ok inside → Origin lines (i.node inside)
  /-- A blank line between two items. -/
  | gap (l : Line) : Origin lines l.blankElement
  /-- A token, or something that a block which is no container is made of. -/
  | part {e : Element} : Every IsPart e → Origin lines e

namespace Origin

variable {lines rest : List Line} {e : Element}

/-- The origin is the same for lines that lead to these. -/
theorem of_leadsTo (h : Origin rest e) (leads : LeadsTo lines rest) : Origin lines e := by
  cases h with
  | block leads' tree => exact .block (leads.trans leads') tree
  | item stands inside =>
    obtain ⟨l, ls, back, leads', eq⟩ := stands
    exact .item ⟨l, ls, back, leads.trans leads', eq⟩ inside
  | gap l => exact .gap l
  | part parts => exact .part parts

theorem every_of_parts (h : Every IsPart e) : Every (Origin lines) e := by
  induction h with
  | token here => exact .token (.part (.token here))
  | node here inside ih => exact .node (.part (.node here inside)) ih

end Origin

theorem exists_of_mem_flatten_zipWith {α β γ : Type} {R : α → β → Prop} {f : α → β → List γ}
    {xs : List α} {ys : List β} (h : Forall₂ R xs ys) {z : γ} (hz : z ∈ (zipWith f xs ys).flatten) :
    ∃ front x back y, xs = front ++ x :: back ∧ R x y ∧ z ∈ f x y := by
  induction h with
  | nil => cases hz
  | @cons x y xs ys first _ ih =>
    rw [zipWith_cons_cons, flatten_cons, mem_append] at hz
    rcases hz with hz | hz
    · exact ⟨[], x, xs, y, rfl, first, hz⟩
    · obtain ⟨front, x', back, y', rfl, related, mem⟩ := ih hz
      exact ⟨x :: front, x', back, y', rfl, related, mem⟩

theorem exists_mem_flatten_zipWith {α β γ : Type} {R : α → β → Prop} {f : α → β → List γ}
    {xs : List α} {ys : List β} (h : Forall₂ R xs ys) {x : α} (hx : x ∈ xs) :
    ∃ y, R x y ∧ ∀ z ∈ f x y, z ∈ (zipWith f xs ys).flatten := by
  induction h with
  | nil => cases hx
  | @cons x₁ y₁ xs ys first _ ih =>
    rw [zipWith_cons_cons, flatten_cons]
    rcases mem_cons.1 hx with rfl | hx
    · exact ⟨y₁, first, fun z hz => mem_append_left _ hz⟩
    · obtain ⟨y, related, mem⟩ := ih hx
      exact ⟨y, related, fun z hz => mem_append_right _ (mem z hz)⟩

/-- What stands in the element of a block has an origin, if what stands inside the block has one. -/
theorem every_origin_element {l : Line} {ls : List Line} {inner : List (List Element)} {e : Element}
    (hinner : Forall₂ (fun ls es => elementsOf ls = .ok es) (next l ls).1.inside inner)
    (he : (next l ls).1.element inner = .ok e)
    (inside : ∀ ks ∈ (next l ls).1.inside, ∀ es, elementsOf ks = .ok es →
      ∀ x ∈ es, Every (Origin ks) x) :
    Every (Origin (l :: ls)) e := by
  have own : Origin (l :: ls) e := .block (.refl _) (tree_eq_ok_iff.2 ⟨inner, hinner, he⟩)
  -- lines inside the block are lines that parsing comes to
  have below : ∀ ks ∈ (next l ls).1.inside, ∀ es, elementsOf ks = .ok es →
      ∀ x ∈ es, Every (Origin (l :: ls)) x := by
    intro ks hks es hes x hx
    exact (inside ks hks es hes x hx).imp fun _ origin => origin.of_leadsTo (.inside hks)
  have stands : ∀ {front i back}, (next l ls).1 = .list (front ++ i :: back) →
      ListItem.StandsIn (l :: ls) front i := fun eq => ⟨l, ls, _, .refl _, eq⟩
  generalize next l ls = step at hinner he below stands
  obtain ⟨b, rest⟩ := step
  cases container : b.isContainer with
  | false =>
    obtain ⟨es, rfl⟩ := kind_element he
    exact .node own fun x hx => Origin.every_of_parts (every_isPart_children container he x hx)
  | true =>
    cases b with
    | quote ks =>
      obtain ⟨es, rfl, hes⟩ := exists_inner_of_quote hinner
      cases he
      refine .node own fun x hx => ?_
      rw [flatten_singleton] at hx
      exact below ks (mem_singleton.2 rfl) es hes x hx
    | list items =>
      cases he
      refine .node own fun x hx => ?_
      obtain ⟨front, i, back, es, rfl, hes, hx⟩ :=
        exists_of_mem_flatten_zipWith (forall₂_map_left_iff.1 hinner) hx
      have mem : i.inner ∈ (list (front ++ i :: back)).inside :=
        mem_map_of_mem (mem_append_right _ mem_cons_self)
      rw [i.elements_eq_append_node, mem_append, mem_singleton] at hx
      rcases hx with hx | rfl
      · -- a blank line between two items
        obtain ⟨k, -, rfl⟩ := mem_map.1 hx
        exact .node (.gap k) fun x hx => Origin.every_of_parts (every_isPart_blankElement k x hx)
      · -- the item itself
        refine .node (.item (stands rfl) hes) (forall_mem_append.2 ⟨fun x hx => ?_, ?_⟩)
        · exact Origin.every_of_parts (i.every_opening .token x hx)
        · exact below i.inner mem es hes
    | _ => cases container

/-- Everything in the tree of some lines has an origin. -/
theorem origin_of_elementsOf {lines : List Line} {es : List Element}
    (h : elementsOf lines = .ok es) : ∀ e ∈ es, Every (Origin lines) e := by
  induction lines using lines_induction generalizing es with
  | nil =>
    rw [elementsOf_nil] at h
    cases h
    exact forall_mem_nil _
  | cons l ls inside behind =>
    obtain ⟨inner, first, others, hinner, hfirst, hothers, rfl⟩ := elementsOf_cons_eq_ok h
    refine forall_mem_cons.2 ⟨?_, fun e he => ?_⟩
    · exact every_origin_element hinner hfirst fun ks mem es made => inside ks mem made
    · have origin := behind hothers e he
      exact origin.imp fun _ o => o.of_leadsTo (.behind l ls)

/-- The children of an element that has an origin are the elements of lines that parsing comes to,
behind tokens, or no blocks stand among them. -/
theorem Origin.children_cases {lines : List Line} {e : Element} (origin : Origin lines e) :
    (∃ opening rest es, e.children = opening ++ es ∧ (∀ x ∈ opening, x.isNode = false) ∧
      LeadsTo lines rest ∧ elementsOf rest = .ok es) ∨
    ∀ x ∈ e.children, x.IsPart ∨ x.kind = .listItem ∨ x.kind = .blankLine := by
  cases origin with
  | @block l ls _ leads ok =>
    obtain ⟨inner, hinner, he⟩ := tree_eq_ok_iff.1 ok
    cases eq : (next l ls).1 with
    | quote ks =>
      rw [eq] at hinner he
      obtain ⟨es, rfl, hes⟩ := exists_inner_of_quote hinner
      cases he
      refine .inl ⟨[], ks, es, ?_, nofun, leads.trans (.inside (eq ▸ mem_singleton.2 rfl)), hes⟩
      exact flatten_singleton
    | list items =>
      rw [eq] at hinner he
      cases he
      refine .inr fun x hx => .inr ?_
      obtain ⟨front, i, back, es, -, -, hx⟩ :=
        exists_of_mem_flatten_zipWith (forall₂_map_left_iff.1 hinner) hx
      rw [i.elements_eq_append_node, mem_append, mem_singleton, mem_map] at hx
      rcases hx with ⟨k, -, rfl⟩ | rfl
      · exact .inr rfl
      · exact .inl rfl
    | _ =>
      rw [eq] at he
      exact .inr fun x hx => .inl (every_isPart_children rfl he x hx).self
  | @item front i inside stands ok =>
    obtain ⟨l, ls, back, leads, eq⟩ := stands
    refine .inl ⟨i.opening, i.inner, inside, rfl, fun x hx => ?_, leads.trans (.inside ?_), ok⟩
    · exact (i.every_opening (P := fun x => x.isNode = false) rfl x hx).self
    · rw [eq]
      exact mem_map_of_mem (mem_append_right _ mem_cons_self)
  | gap l => exact .inr fun x hx => .inl (every_isPart_blankElement l x hx).self
  | part parts =>
    cases parts with
    | token => exact .inr (forall_mem_nil _)
    | node _ inside => exact .inr fun x hx => .inl (inside x hx).self

/-- The first element of some lines is that of their first block, and the others are those of the
lines behind it. -/
theorem exists_cons_of_elementsOf {lines : List Line} {e : Element} {es : List Element}
    (h : elementsOf lines = .ok (e :: es)) :
    ∃ l ls, lines = l :: ls ∧ (next l ls).1.tree = .ok e ∧ elementsOf (next l ls).2 = .ok es := by
  cases lines with
  | nil => cases elementsOf_nil.symm.trans h
  | cons l ls =>
    obtain ⟨inner, first, others, hinner, hfirst, hothers, eq⟩ := elementsOf_cons_eq_ok h
    cases eq
    exact ⟨l, ls, rfl, tree_eq_ok_iff.2 ⟨inner, hinner, hfirst⟩, hothers⟩

/-- An element among those of some lines is that of a block of these lines, and those behind it are
those of the lines behind the block. -/
theorem exists_block_of_append {front back : List Element} {e : Element} {lines : List Line}
    (h : elementsOf lines = .ok (front ++ e :: back)) :
    ∃ l ls, LeadsTo lines (l :: ls) ∧ l :: ls <:+ lines ∧ (next l ls).1.tree = .ok e ∧
      elementsOf (next l ls).2 = .ok back := by
  induction front generalizing lines with
  | nil =>
    obtain ⟨l, ls, rfl, ok, behind⟩ := exists_cons_of_elementsOf h
    exact ⟨l, ls, .refl _, suffix_rfl, ok, behind⟩
  | cons x front ih =>
    obtain ⟨l, ls, rfl, -, behind⟩ := exists_cons_of_elementsOf h
    obtain ⟨k, ks, leads, suffix, found⟩ := ih behind
    have below := suffix.trans (suffix_next l ls)
    exact ⟨k, ks, (LeadsTo.behind l ls).trans leads, below.trans (suffix_cons l ls), found⟩

end Block

end TierLint
