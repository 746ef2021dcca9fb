import TierLint.Inline.Elements
import TierLint.Proofs.Syntax.Every

/-!
# Properties of every element of running text

Running text has no paragraphs and no headings in it, none of its tokens of prose is empty, and
strong emphasis begins with its marker. A property that holds of all such elements holds of all
elements of running text (`Inline.every_elements`).
-/

set_option autoImplicit false

namespace TierLint

open Element List

variable {P : Element → Prop}

theorem Inline.every_consText (filled : ∀ {t : Text}, t ≠ [] → P (.token .text t)) {t : Text}
    (ne : t ≠ []) {es : List Element} (h : ∀ e ∈ es, Every P e) :
    ∀ e ∈ consText t es, Every P e := by
  unfold consText
  split
  · refine forall_mem_cons.2 ⟨.token (filled ?_), fun e he => h e (mem_cons_of_mem _ he)⟩
    exact fun empty => ne (append_eq_nil_iff.1 empty).1
  · exact forall_mem_cons.2 ⟨.token (filled ne), h⟩

variable (plain : ∀ {k : Kind} {t : Text}, k.isProse = false → P (.token k t))
variable (filled : ∀ {k : Kind} {t : Text}, t ≠ [] → P (.token k t))
variable (node : ∀ {k : Kind} {es : List Element}, k.isPart = true → k.isSought = false →
  P (.node k es))
variable (strong : ∀ {t : Text} {es : List Element}, t ≠ [] →
  P (.node .strong (.token .strongMarker t :: es)))

include plain filled node strong

theorem Markup.every_element (m : Markup) {inside : List Element} (h : ∀ e ∈ inside, Every P e) :
    Every P (m.element inside) := by
  have token {k : Kind} (hk : k.isProse = false) (t : Text) :
      ∀ e ∈ [Element.token k t], Every P e := forall_mem_singleton.2 (.token (plain hk))
  cases m with
  | escape c => exact .token (filled (cons_ne_nil _ _))
  | codeSpan s =>
    exact .node (node rfl rfl) (forall_mem_append.2 ⟨forall_mem_cons.2 ⟨.token (plain rfl),
      every_tokenUnlessEmpty filled⟩, token rfl _⟩)
  | autolink address => exact .token (plain rfl)
  | image l =>
    exact .node (node rfl rfl) (forall_mem_append.2 ⟨forall_mem_cons.2 ⟨.token (plain rfl),
      every_tokenUnlessEmpty filled⟩, token rfl _⟩)
  | link l =>
    exact .node (node rfl rfl) (forall_mem_cons.2 ⟨.token (plain rfl),
      forall_mem_cons.2 ⟨.node (node rfl rfl) h, token rfl _⟩⟩)
  | emphasis e =>
    obtain ⟨d, isStrong, content⟩ := e
    cases isStrong with
    | true =>
      exact .node (strong (cons_ne_nil _ _)) (forall_mem_append.2
        ⟨forall_mem_cons.2 ⟨.token (plain rfl), h⟩, token rfl _⟩)
    | false =>
      exact .node (node rfl rfl) (forall_mem_append.2
        ⟨forall_mem_cons.2 ⟨.token (plain rfl), h⟩, token rfl _⟩)

theorem Inline.every_elements (t : Text) : ∀ e ∈ elements t, Every P e := by
  rw [elements]
  generalize (none : Option Char) = before
  fun_induction elementsBehind before t with
  | case1 => exact forall_mem_nil _
  | case2 before c rest m after _ inside behind =>
    exact forall_mem_cons.2 ⟨m.every_element plain filled node strong inside, behind⟩
  | case3 before c rest _ n behind =>
    refine every_consText filled (fun empty => ?_) behind
    have := congrArg length empty
    simp at this

end TierLint
