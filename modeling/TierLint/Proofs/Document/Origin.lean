import TierLint.Proofs.Block.Origin

/-!
# Where the nodes of a document come from

A document is front matter, if it begins with it, and the elements of its body
(`Document.parse_eq_ok_iff_body`). All other nodes come from the lines of the body
(`Document.origin_of_mem_visits`), and wherever parsing these lines comes to, the elements found there
are the last children of some node of the tree (`Document.exists_parent_of_leadsTo`).
-/

set_option autoImplicit false

namespace TierLint

open Element List

namespace Document

variable {t : Text} {tree : Element} {v : Visit}

/-- The lines of the text behind its front matter. -/
def body (t : Text) : List Line :=
  match FrontMatter.read? (Line.ofText t) with
  | some (_, rest) => rest
  | none => Line.ofText t

/-- The element for the front matter, if the text begins with it. -/
def frontMatter (t : Text) : List Element :=
  match FrontMatter.read? (Line.ofText t) with
  | some (f, _) => [f.element]
  | none => []

theorem body_suffix (t : Text) : body t <:+ Line.ofText t := by
  rw [body]
  split
  · rename_i f rest found
    exact ⟨_, FrontMatter.lines_of_read? found⟩
  · exact suffix_refl _

/-- The tree of a text holds its front matter and the elements of its body. -/
theorem parse_eq_ok_iff_body :
    parse t = .ok tree ↔
      ∃ es, Block.elementsOf (body t) = .ok es ∧ tree = Document.tree (frontMatter t ++ es) := by
  rw [parse_eq_ok_iff, elements, body, frontMatter]
  cases FrontMatter.read? (Line.ofText t) with
  | none => exact Iff.rfl
  | some found =>
    obtain ⟨f, rest⟩ := found
    constructor
    · rintro ⟨all, h, rfl⟩
      obtain ⟨es, hes, eq⟩ := exists_of_bind_eq_ok h
      cases eq
      exact ⟨es, hes, rfl⟩
    · rintro ⟨es, hes, rfl⟩
      refine ⟨f.element :: es, ?_, rfl⟩
      dsimp only at hes ⊢
      rw [hes]
      rfl

theorem kind_of_mem_frontMatter {e : Element} (h : e ∈ frontMatter t) : e.kind = .frontMatter := by
  rw [frontMatter] at h
  split at h
  · rw [mem_singleton.1 h]
    rfl
  · cases h

/-- Where an element in the tree of a document comes from, if `es` are the elements of its body. -/
inductive Source (t : Text) (es : List Element) : Element → Prop
  /-- The whole tree. -/
  | root : Source t es (Document.tree (frontMatter t ++ es))
  /-- The node around the elements of the document. -/
  | document : Source t es (.node .document (frontMatter t ++ es))
  /-- Front matter, which is made of tokens. -/
  | frontMatter {inside : List Element} :
      (∀ e ∈ inside, e.isNode = false) → Source t es (.node .frontMatter inside)
  /-- The lines of the body. -/
  | body {e : Element} : Block.Origin (body t) e → Source t es e

/-- Everything in the tree of a document has a source. -/
theorem source_of_mem_visits (h : parse t = .ok tree) :
    ∃ es, Block.elementsOf (body t) = .ok es ∧ ∀ v ∈ tree.visits, Source t es v.element := by
  obtain ⟨es, hes, rfl⟩ := parse_eq_ok_iff_body.1 h
  refine ⟨es, hes, fun v hv => ?_⟩
  have front : ∀ e ∈ frontMatter t, Every (Source t es) e := by
    intro e he
    rw [frontMatter] at he
    split at he
    · rename_i f rest found
      rw [mem_singleton.1 he]
      have tokens := f.every_children (P := fun e => e.isNode = false) fun _ => rfl
      refine .node (.frontMatter fun x hx => (tokens x hx).self) fun x hx => ?_
      exact f.every_children (fun _ => .body (.part (.token .token))) x hx
    · cases he
  have back : ∀ e ∈ es, Every (Source t es) e := fun e he =>
    (Block.origin_of_elementsOf hes e he).imp fun _ => .body
  have whole : Every (Source t es) (Document.tree (frontMatter t ++ es)) :=
    .node .root (forall_mem_singleton.2 (.node .document (forall_mem_append.2 ⟨front, back⟩)))
  exact (every_of_mem_visitsFromAll (forall_mem_singleton.2 whole) (mem_append_left _ hv)).self

/-- The kinds of the nodes above the elements of lines, and of front matter. -/
def isFrame : Kind → Bool
  | .root | .document | .frontMatter => true
  | _ => false

/-- All but the frame of a document comes from the lines of its body. -/
theorem origin_of_mem_visits (h : parse t = .ok tree) (hv : v ∈ tree.visits)
    (inner : isFrame v.element.kind = false) : Block.Origin (body t) v.element := by
  obtain ⟨es, -, source⟩ := source_of_mem_visits h
  have source := source v hv
  generalize v.element = e at inner source ⊢
  cases source with
  | root => cases inner
  | document => cases inner
  | frontMatter => cases inner
  | body origin => exact origin

theorem kind_of_mem_nodesOf {k : Kind} (hv : v ∈ tree.nodesOf k) :
    v ∈ tree.visits ∧ v.element.kind = k ∧ v.element.isNode = true := by
  obtain ⟨hv, node⟩ := mem_filter.1 hv
  obtain ⟨mem, kind⟩ := mem_filter.1 hv
  exact ⟨mem, beq_iff_eq.1 kind, node⟩

/-- The nodes of a kind that only blocks have are the elements of blocks that parsing comes to. -/
theorem exists_block_of_mem_nodesOf {k : Kind} (h : parse t = .ok tree) (hv : v ∈ tree.nodesOf k)
    (hk : isFrame k = false ∧ k.isPart = false ∧ k ≠ .listItem ∧ k ≠ .blankLine) :
    ∃ l ls, Block.LeadsTo (body t) (l :: ls) ∧ (Block.next l ls).1.kind = k ∧
      (Block.next l ls).1.tree = .ok v.element := by
  obtain ⟨mem, rfl, node⟩ := kind_of_mem_nodesOf hv
  obtain ⟨frame, part, item, blank⟩ := hk
  have origin := origin_of_mem_visits h mem frame
  generalize v.element = e at node frame part item blank origin
  cases origin with
  | block leads ok =>
    obtain ⟨inner, -, he⟩ := Block.tree_eq_ok_iff.1 ok
    obtain ⟨es, rfl⟩ := Block.kind_element he
    exact ⟨_, _, leads, rfl, ok⟩
  | item => exact absurd rfl item
  | gap => exact absurd rfl blank
  | part parts =>
    rw [parts.self node] at part
    cases part

/-- A node with a block among its children has the elements of lines that parsing comes to, behind
tokens and front matter. -/
theorem exists_lines_of_mem_children (h : parse t = .ok tree) (hv : v ∈ tree.visits) {e : Element}
    (he : e ∈ v.element.children) (node : e.isNode = true)
    (hk : isFrame e.kind = false ∧ e.kind.isPart = false ∧ e.kind ≠ .listItem ∧
      e.kind ≠ .blankLine) :
    ∃ opening rest es, v.element.children = opening ++ es ∧
      (∀ x ∈ opening, x.isNode = true → x.kind = .frontMatter) ∧
      Block.LeadsTo (body t) rest ∧ Block.elementsOf rest = .ok es := by
  obtain ⟨frame, part, item, blank⟩ := hk
  obtain ⟨es, hes, source⟩ := source_of_mem_visits h
  have source := source v hv
  generalize v.element = parent at he source ⊢
  cases source with
  | root =>
    rw [mem_singleton.1 he] at frame
    cases frame
  | document =>
    exact ⟨_, _, es, rfl, fun x hx _ => kind_of_mem_frontMatter hx, .refl _, hes⟩
  | frontMatter tokens =>
    rw [tokens e he] at node
    cases node
  | body origin =>
    rcases origin.children_cases with ⟨opening, rest, es, eq, tokens, found⟩ | others
    · refine ⟨opening, rest, es, eq, fun x hx node => ?_, found⟩
      rw [tokens x hx] at node
      cases node
    · rcases others e he with isPart | isItem | isBlank
      · rw [isPart node] at part
        cases part
      · exact absurd isItem item
      · exact absurd isBlank blank

/-- A block among the children of a node is one that parsing comes to, and what stands behind it are
the elements of the lines behind the block. -/
theorem exists_block_of_children (h : parse t = .ok tree) (hv : v ∈ tree.visits)
    {front back : List Element} {e : Element} (eq : v.element.children = front ++ e :: back)
    (node : e.isNode = true)
    (hk : isFrame e.kind = false ∧ e.kind.isPart = false ∧ e.kind ≠ .listItem ∧
      e.kind ≠ .blankLine) :
    ∃ l ls, Block.LeadsTo (body t) (l :: ls) ∧ (Block.next l ls).1.tree = .ok e ∧
      Block.elementsOf (Block.next l ls).2 = .ok back := by
  have mem : e ∈ v.element.children := eq ▸ mem_append_right _ mem_cons_self
  obtain ⟨opening, rest, es, parts, others, leads, ok⟩ :=
    exists_lines_of_mem_children h hv mem node hk
  obtain ⟨before, rfl⟩ : ∃ before, es = before ++ e :: back := by
    rcases append_eq_append_iff.1 (parts.symm.trans eq) with ⟨before, -, eq⟩ | ⟨more, rfl, eq⟩
    · exact ⟨before, eq⟩
    · cases more with
      | nil => exact ⟨[], eq.symm⟩
      | cons x more =>
        cases eq
        have front := others _ (mem_append_right front mem_cons_self) node
        rw [front] at hk
        cases hk.1
  obtain ⟨l, ls, onward, -, found⟩ := Block.exists_block_of_append ok
  exact ⟨l, ls, leads.trans onward, found⟩

/-- The items in the tree are those of the lists that parsing comes to. -/
theorem exists_item_of_mem_nodesOf (h : parse t = .ok tree) (hv : v ∈ tree.nodesOf .listItem) :
    ∃ front i inside, ListItem.StandsIn (body t) front i ∧ Block.elementsOf i.inner = .ok inside ∧
      v.element = i.node inside := by
  obtain ⟨mem, kind, node⟩ := kind_of_mem_nodesOf hv
  have origin := origin_of_mem_visits h mem (by rw [kind]; rfl)
  generalize v.element = e at kind node origin ⊢
  cases origin with
  | @block l ls _ _ ok =>
    obtain ⟨inner, -, he⟩ := Block.tree_eq_ok_iff.1 ok
    obtain ⟨es, rfl⟩ := Block.kind_element he
    exact absurd kind (Block.kind_ne_listItem _)
  | item stands inside => exact ⟨_, _, _, stands, inside, rfl⟩
  | gap => cases kind
  | part parts =>
    have part := parts.self node
    rw [kind] at part
    cases part

end Document

/-! ## Children -/

/-- The children of a visited element are visited. -/
theorem Element.exists_visit_of_mem_children {tree : Element} {v : Visit} (hv : v ∈ tree.visits)
    {c : Element} (hc : c ∈ v.element.children) : ∃ w ∈ tree.visits, w.element = c := by
  have visited : ∀ (es : List Element) (above : List Element) (start : Nat), c ∈ es →
      ∃ w ∈ visitsFromAll above start es, w.element = c := by
    intro es
    induction es with
    | nil =>
      intro above start hc
      cases hc
    | cons e es ih =>
      intro above start hc
      rcases mem_cons.1 hc with rfl | hc
      · refine ⟨⟨above, start, c⟩, mem_append_left _ ?_, rfl⟩
        cases c <;> exact mem_cons_self
      · obtain ⟨w, hw, eq⟩ := ih above (start + e.byteLength) hc
        exact ⟨w, mem_append_right _ hw, eq⟩
  have closed : ∀ (es : List Element) (above : List Element) (start : Nat),
      v ∈ visitsFromAll above start es → ∃ w ∈ visitsFromAll above start es, w.element = c := by
    intro es
    induction es using forest_induction with
    | nil =>
      intro above start hv
      cases hv
    | token k t es ih =>
      intro above start hv
      rcases mem_append.1 hv with hv | hv
      · rw [mem_singleton.1 hv] at hc
        cases hc
      · obtain ⟨w, hw, eq⟩ := ih _ _ hv
        exact ⟨w, mem_append_right _ hw, eq⟩
    | node k inside es ihInside ih =>
      intro above start hv
      rcases mem_append.1 hv with hv | hv
      · rcases mem_cons.1 hv with rfl | hv
        · obtain ⟨w, hw, eq⟩ := visited inside (above ++ [.node k inside]) start hc
          exact ⟨w, mem_append_left _ (mem_cons_of_mem _ hw), eq⟩
        · obtain ⟨w, hw, eq⟩ := ihInside _ _ hv
          exact ⟨w, mem_append_left _ (mem_cons_of_mem _ hw), eq⟩
      · obtain ⟨w, hw, eq⟩ := ih _ _ hv
        exact ⟨w, mem_append_right _ hw, eq⟩
  have whole := closed [tree] [] 0 (mem_append_left _ hv)
  rwa [visitsFromAll, visitsFromAll, append_nil] at whole

/-- Lines inside a container: their elements are the last children of the container's element, or
those of an item in it. -/
theorem Block.last_children_of_mem_inside {b : Block} {ks : List Line} (mem : ks ∈ b.inside)
    {inner : List (List Element)} {e : Element}
    (hinner : Forall₂ (fun ls es => elementsOf ls = .ok es) b.inside inner)
    (he : b.element inner = .ok e) :
    ∃ es, elementsOf ks = .ok es ∧
      (es <:+ e.children ∨ ∃ opening, .node .listItem (opening ++ es) ∈ e.children) := by
  cases b with
  | quote lines =>
    obtain ⟨es, rfl, hes⟩ := exists_inner_of_quote hinner
    obtain rfl := mem_singleton.1 mem
    cases he
    refine ⟨es, hes, .inl ?_⟩
    rw [flatten_singleton]
    exact suffix_refl es
  | list items =>
    obtain ⟨i, hi, rfl⟩ := mem_map.1 mem
    cases he
    obtain ⟨es, hes, written⟩ := exists_mem_flatten_zipWith (forall₂_map_left_iff.1 hinner) hi
      (f := ListItem.elements)
    exact ⟨es, hes, .inr ⟨i.opening, written _ (mem_append_right _ (mem_singleton.2 rfl))⟩⟩
  | _ => cases mem

namespace Document

variable {t : Text} {tree : Element}

/-- Where parsing the body of a document comes to, the elements found there are the last children of
a node of the tree. -/
theorem exists_parent_of_leadsTo (h : parse t = .ok tree) {rest : List Line}
    (leads : Block.LeadsTo (body t) rest) :
    ∃ es, Block.elementsOf rest = .ok es ∧ ∃ v ∈ tree.visits, es <:+ v.element.children := by
  refine leads.invariant (P := fun rest => ∃ es, Block.elementsOf rest = .ok es ∧
    ∃ v ∈ tree.visits, es <:+ v.element.children) ?_ ?_
  · intro ls ks step
    cases step with
    | behind l ls =>
      rintro ⟨es, hes, v, hv, suffix⟩
      obtain ⟨inner, first, others, -, -, hothers, rfl⟩ := Block.elementsOf_cons_eq_ok hes
      exact ⟨others, hothers, v, hv, (suffix_cons first others).trans suffix⟩
    | @inside l ls ks mem =>
      rintro ⟨es, hes, v, hv, suffix⟩
      obtain ⟨inner, first, others, hinner, hfirst, -, rfl⟩ := Block.elementsOf_cons_eq_ok hes
      have child : first ∈ v.element.children := suffix.subset mem_cons_self
      obtain ⟨w, hw, rfl⟩ := exists_visit_of_mem_children hv child
      obtain ⟨es, hes, last | ⟨opening, item⟩⟩ :=
        Block.last_children_of_mem_inside mem hinner hfirst
      · exact ⟨es, hes, w, hw, last⟩
      · obtain ⟨x, hx, eq⟩ := exists_visit_of_mem_children hw item
        exact ⟨es, hes, x, hx, eq ▸ suffix_append opening es⟩
  · obtain ⟨es, hes, rfl⟩ := parse_eq_ok_iff_body.1 h
    refine ⟨es, hes,
      ⟨[Document.tree (frontMatter t ++ es)], 0, .node .document (frontMatter t ++ es)⟩, ?_, ?_⟩
    · exact mem_cons_of_mem _ (mem_append_left _ mem_cons_self)
    · exact suffix_append _ _

end Document

end TierLint
