import TierLint.Proofs.Syntax.Traversal

/-!
# Properties of every element of a tree

Some properties hold of every element of a tree, or of none inside it (`Element.Every`). They carry
over to what a traversal finds: everything visited (`of_mem_visitsFromAll`), the nodes of a kind
(`every_nodesBehind`) and, if no element is prose, the absence of text runs (`runsFromAll_eq_nil`).
-/

set_option autoImplicit false

namespace TierLint

/-- The kinds of the tokens that text runs consist of. -/
def Kind.isProse : Kind → Bool
  | .text | .escapedChar => true
  | _ => false

/-- The kinds of the nodes that running text and the blocks that are no containers are made of. -/
def Kind.isPart : Kind → Bool
  | .emphasis | .strong | .codeSpan | .link | .linkText | .image
  | .headingContent | .headingMarker | .headingUnderline
  | .codeFenceOpen | .codeFenceClose | .codeContent
  | .tableRow | .tableSeparator | .tableCell => true
  | _ => false

namespace Element

/-- The element is the node of a paragraph. -/
def isParagraph (e : Element) : Bool := e.isNode && e.kind == .paragraph

/-- The element and all elements inside it have the property. -/
inductive Every (P : Element → Prop) : Element → Prop
  | token {k : Kind} {t : Text} : P (.token k t) → Every P (.token k t)
  | node {k : Kind} {inside : List Element} :
      P (.node k inside) → (∀ e ∈ inside, Every P e) → Every P (.node k inside)

variable {P Q : Element → Prop} {k : Kind} {t : Text} {inside es fs : List Element} {e : Element}

@[simp] theorem every_token : Every P (.token k t) ↔ P (.token k t) :=
  ⟨fun h => (by cases h; assumption), .token⟩

@[simp] theorem every_node :
    Every P (.node k inside) ↔ P (.node k inside) ∧ ∀ e ∈ inside, Every P e :=
  ⟨fun h => (by cases h; exact ⟨‹_›, ‹_›⟩), fun h => .node h.1 h.2⟩

theorem Every.self (h : Every P e) : P e := by
  cases h <;> assumption

theorem Every.imp (h : Every P e) (weaker : ∀ e, P e → Q e) : Every Q e := by
  induction h with
  | token here => exact .token (weaker _ here)
  | node here _ ih => exact .node (weaker _ here) ih

/-! ## Builders -/

theorem every_tokenUnlessEmpty (h : t ≠ [] → P (.token k t)) :
    ∀ e ∈ tokenUnlessEmpty k t, Every P e := by
  intro e he
  cases t with
  | nil => cases he
  | cons c t =>
    obtain rfl := List.mem_singleton.1 he
    exact .token (h (List.cons_ne_nil c t))

theorem every_trimmed (spaces : ∀ t, P (.token .whitespace t)) (h : ∀ t, t ≠ [] → P (.token k t))
    (t : Text) : ∀ e ∈ trimmed k t, Every P e :=
  List.forall_mem_append.2 ⟨List.forall_mem_append.2
    ⟨every_tokenUnlessEmpty fun _ => spaces _, every_tokenUnlessEmpty (h _)⟩,
    every_tokenUnlessEmpty fun _ => spaces _⟩

/-! ## Nodes and runs -/

/-- What holds of elements below some nodes, and goes on from a node to what is inside of it, holds
of everything that is visited. -/
theorem of_mem_visitsFromAll {R : List Element → Element → Prop} {above : List Element}
    {start : Nat} {v : Visit}
    (onward : ∀ {above k inside}, R above (.node k inside) →
      ∀ e ∈ inside, R (above ++ [.node k inside]) e)
    (h : ∀ e ∈ es, R above e) (hv : v ∈ visitsFromAll above start es) :
    R v.ancestors v.element := by
  induction es using forest_induction generalizing above start with
  | nil => cases hv
  | token k t es ih =>
    rcases List.mem_append.1 hv with hv | hv
    · obtain rfl := List.mem_singleton.1 hv
      exact h _ List.mem_cons_self
    · exact ih (fun e he => h e (List.mem_cons_of_mem _ he)) hv
  | node k inside es ihInside ih =>
    have first := h _ List.mem_cons_self
    rcases List.mem_append.1 hv with hv | hv
    · rcases List.mem_cons.1 hv with rfl | hv
      · exact first
      · exact ihInside (onward first) hv
    · exact ih (fun e he => h e (List.mem_cons_of_mem _ he)) hv

/-- What is visited has the property. -/
theorem every_of_mem_visitsFromAll {above : List Element} {start : Nat} {v : Visit}
    (h : ∀ e ∈ es, Every P e) (hv : v ∈ visitsFromAll above start es) : Every P v.element :=
  of_mem_visitsFromAll (R := fun _ => Every P) (fun node => (every_node.1 node).2) h hv

/-- The nodes that a search finds have the property. -/
theorem every_nodesBehind (k : Kind) (above : List Element) (b : Text)
    (h : ∀ e ∈ es, Every P e) : ∀ v ∈ nodesBehind k above b es, Every P v.element := by
  intro v hv
  exact every_of_mem_visitsFromAll h (List.mem_of_mem_filter hv)

theorem kind_of_mem_nodesBehind {above : List Element} {b : Text} {v : Visit}
    (h : v ∈ nodesBehind k above b es) : v.element.isNode = true ∧ v.element.kind = k := by
  have found := Bool.and_eq_true_iff.1 (List.mem_filter.1 h).2
  exact ⟨found.2, beq_iff_eq.1 found.1⟩

/-- Where no node is of the kind, none is found. -/
theorem nodesBehind_eq_nil (above : List Element) (b : Text)
    (h : ∀ e ∈ es, Every (fun e => e.isNode = true → e.kind ≠ k) e) :
    nodesBehind k above b es = [] := by
  refine List.eq_nil_iff_forall_not_mem.2 fun v hv => ?_
  obtain ⟨node, kind⟩ := kind_of_mem_nodesBehind hv
  exact (every_nodesBehind k above b h v hv).self node kind

end Element

namespace TextRun

open Element

variable {es : List Element} {above : List Element} {e : Element} {run? : Option Open}

theorem isProse_of_effect {piece : Text} (h : effect e = .extends piece) :
    e.kind.isProse = true := by
  unfold effect at h
  split at h <;> first | rfl | cases h

/-- Where nothing is prose there are no runs. -/
theorem runsFromAll_eq_nil (above : List Element) (start : Nat)
    (h : ∀ e ∈ es, Every (fun e => e.kind.isProse = false) e) :
    runsFromAll above start none es = [] := by
  induction es using forest_induction generalizing above start with
  | nil => rfl
  | token k t es ih =>
    have here := (h _ List.mem_cons_self).self
    have behind := ih above (start + (Element.token k t).byteLength) fun e he =>
      h e (List.mem_cons_of_mem _ he)
    rw [runsFromAll]
    cases effects : effect (.token k t) with
    | «extends» piece =>
      rw [isProse_of_effect effects] at here
      cases here
    | breaks => exact behind
    | keeps => exact behind
    | ends => exact behind
  | node k inside es ihInside ih =>
    have first := (every_node.1 (h _ List.mem_cons_self)).2
    rw [runsFromAll]
    show [] ++ runsFrom above start (.node k inside) ++ _ = []
    rw [runsFrom, ihInside _ _ first, ih _ _ fun e he => h e (List.mem_cons_of_mem _ he)]
    rfl

/-- A run lies below the nodes that the traversal began below. -/
theorem prefix_ancestors_of_mem {start : Nat} {r : TextRun}
    (h : r ∈ runsFromAll above start run? es) : above <+: r.ancestors := by
  have finished : ∀ {run? : Option Open}, r ∈ Open.finish above run? → above <+: r.ancestors := by
    intro run? hr
    obtain ⟨run, -, rfl⟩ := List.mem_map.1 hr
    exact List.prefix_refl above
  induction es using forest_induction generalizing above start run? with
  | nil => exact finished h
  | token k t es ih =>
    rw [runsFromAll] at h
    cases effects : effect (.token k t) with
    | «extends» piece => rw [effects] at h; exact ih h finished
    | breaks => rw [effects] at h; exact ih h finished
    | keeps => rw [effects] at h; exact ih h finished
    | ends =>
      rw [effects] at h
      rcases List.mem_append.1 h with h | h
      · exact finished (by simpa [runsFrom] using h)
      · exact ih h finished
  | node k inside es ihInside ih =>
    rw [runsFromAll] at h
    rcases List.mem_append.1 h with h | h
    · rcases List.mem_append.1 h with h | h
      · exact finished h
      · rw [runsFrom] at h
        refine (List.prefix_append above [.node k inside]).trans (ihInside h fun hr => ?_)
        obtain ⟨run, -, rfl⟩ := List.mem_map.1 hr
        exact List.prefix_refl _
    · exact ih h finished

/-- An element that ends runs parts the runs in front of it, inside it and behind it. -/
theorem runsFromAll_append_cons (ends : effect e = .ends) (above : List Element) (b : Text)
    (run? : Option Open) (es fs : List Element) :
    runsFromAll above (Text.byteLength b) run? (es ++ e :: fs) =
      runsFromAll above (Text.byteLength b) run? es
        ++ runsFrom above (Text.byteLength (b ++ textOf es)) e
        ++ runsFromAll above (Text.byteLength (b ++ textOf es ++ e.text)) none fs := by
  induction es generalizing b run? with
  | nil =>
    rw [List.nil_append, runsFromAll, runsFromAll, ends, byteLength_add, textOf_nil,
      List.append_nil]
  | cons e₁ es ih =>
    rw [List.cons_append, runsFromAll, runsFromAll, byteLength_add, textOf_cons,
      ← List.append_assoc]
    cases effect e₁ with
    | «extends» piece => exact ih _ _
    | breaks => exact ih _ _
    | keeps => exact ih _ _
    | ends => simp only [ih, List.append_assoc]

end TextRun

end TierLint
