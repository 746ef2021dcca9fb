import Mathlib.Data.List.Chain
import TierLint.Proofs.Inline.Every
import TierLint.Proofs.Inline.Readers
import TierLint.Proofs.Inline.Spelling

/-!
# Literal text between constructs is one token

What opens nothing is literal, piece by piece, and each piece is joined to the literal text behind
it. So two pieces of literal text never stand side by side, at any depth (`Element.Parted`), and no
token is empty: constructs leave out what is not there, and their markers are not
(`Markup.canonical_element`). Together with what the tokens spell this makes the elements of running
text canonical (`Inline.canonical_elements`).
-/

set_option autoImplicit false

namespace TierLint

open Element List

namespace Element

/-- The element is a token of literal text. -/
def isLiteral : Element → Bool
  | .token .text _ => true
  | _ => false

/-- No two neighbours are literal text. -/
def Parted (es : List Element) : Prop :=
  es.IsChain fun x y => x.isLiteral = true → y.isLiteral = false

/-- A token that is not empty, or a node in which no two neighbours are literal text. -/
def Canonical : Element → Prop
  | .token _ t => t ≠ []
  | .node _ es => Parted es

variable {e e' : Element} {es : List Element}

namespace Parted

/-- What is no literal text parts what stands on its two sides. -/
theorem cons (he : e.isLiteral = false) (h : Parted es) : Parted (e :: es) := by
  refine isChain_cons.2 ⟨fun _ _ literal => ?_, h⟩
  rw [he] at literal
  cases literal

theorem enclose (he : e.isLiteral = false) (h : Parted es) (he' : e'.isLiteral = false) :
    Parted (e :: es ++ [e']) := by
  refine isChain_append.2 ⟨h.cons he, isChain_singleton e', fun _ _ y hy _ => ?_⟩
  cases hy
  exact he'

theorem tokenUnlessEmpty (k : Kind) (t : Text) : Parted (tokenUnlessEmpty k t) := by
  cases t with
  | nil => exact .nil
  | cons c t => exact isChain_singleton _

/-- Literal text is joined to that behind it, so that it still has none for a neighbour. -/
theorem consText (t : Text) (h : Parted es) : Parted (Inline.consText t es) := by
  unfold Inline.consText
  split
  · exact isChain_cons.2 (isChain_cons.1 h)
  · rename_i other
    refine isChain_cons.2 ⟨fun y hy _ => ?_, h⟩
    obtain ⟨behind, rfl⟩ := head?_eq_some_iff.1 hy
    unfold isLiteral
    split
    · exact absurd rfl (other _ _)
    · rfl

end Parted

end Element

namespace Markup

variable {before : Option Char} {t rest : Text} {m : Markup} {inside : List Element}

theorem isLiteral_element (m : Markup) (inside : List Element) :
    (m.element inside).isLiteral = false := by
  cases m <;> rfl

/-- The element of a construct is canonical if those of its running text are. -/
theorem canonical_element (h : m.Reads before t rest) (parted : Parted inside)
    (canonical : ∀ e ∈ inside, Every Canonical e) : Every Canonical (m.element inside) := by
  have token {k : Kind} {u : Text} (ne : u ≠ []) : ∀ e ∈ [Element.token k u], Every Canonical e :=
    forall_mem_singleton.2 (.token ne)
  -- a marker or bracket on each side of what is canonical
  have enclosed {k k₁ k₂ : Kind} {u u' : Text} {es : List Element} (hk₁ : k₁ ≠ .text) (hu : u ≠ [])
      (hk₂ : k₂ ≠ .text) (hu' : u' ≠ []) (hes : Parted es) (all : ∀ e ∈ es, Every Canonical e) :
      Every Canonical (.node k (.token k₁ u :: es ++ [.token k₂ u'])) := by
    have other {k : Kind} {u : Text} (hk : k ≠ .text) : (Element.token k u).isLiteral = false := by
      cases k with
      | text => exact absurd rfl hk
      | _ => rfl
    exact .node (hes.enclose (other hk₁) (other hk₂))
      (forall_mem_append.2 ⟨forall_mem_cons.2 ⟨.token hu, all⟩, token hu'⟩)
  cases m with
  | escape c => exact .token (cons_ne_nil _ _)
  | codeSpan s =>
    have marker : s.marker ≠ [] := by
      rw [CodeSpan.marker, Ne, replicate_eq_nil_iff]
      exact (CodeSpan.ticks_pos_of_read? h).ne'
    exact enclosed (by decide) marker (by decide) marker (.tokenUnlessEmpty _ _)
      (every_tokenUnlessEmpty id)
  | autolink address => exact .token (cons_ne_nil _ _)
  | image l =>
    exact enclosed (by decide) (cons_ne_nil _ _) (by decide) (cons_ne_nil _ _)
      (.tokenUnlessEmpty _ _) (every_tokenUnlessEmpty id)
  | link l =>
    have only : Parted [Element.node .linkText inside] := isChain_singleton _
    exact enclosed (by decide) (cons_ne_nil _ _) (by decide) (cons_ne_nil _ _) only
      (forall_mem_singleton.2 (.node parted canonical))
  | emphasis e =>
    have mark : (if e.strong then Kind.strongMarker else .emphasisMarker) ≠ .text := by
      split <;> decide
    have marker : e.marker ≠ [] := by
      rw [Emphasis.marker, Ne, replicate_eq_nil_iff, Emphasis.width]
      split <;> decide
    exact enclosed mark marker mark marker parted canonical

end Markup

namespace Inline

theorem canonical_elementsBehind (before : Option Char) (t : Text) :
    Parted (elementsBehind before t) ∧ ∀ e ∈ elementsBehind before t, Every Canonical e := by
  fun_induction elementsBehind before t with
  | case1 => exact ⟨.nil, forall_mem_nil _⟩
  | case2 before c rest m after h inside behind =>
    have element := Markup.canonical_element (Markup.reads_of_read? h) inside.1 inside.2
    exact ⟨behind.1.cons (m.isLiteral_element _), forall_mem_cons.2 ⟨element, behind.2⟩⟩
  | case3 before c rest _ n behind =>
    have ne : replicate (1 + n) c ≠ [] := by
      rw [Ne, replicate_eq_nil_iff]
      omega
    exact ⟨behind.1.consText _, every_consText id ne behind.2⟩

/-- **Canonical form.** The tokens of running text make it up and none of them is empty; in the
sequence of its elements and in every node among them, no two neighbours are literal text. -/
theorem canonical_elements (t : Text) (k : Kind) :
    (tokensOf (elements t)).flatMap (·.2) = t ∧ Every Canonical (.node k (elements t)) := by
  have ⟨parted, canonical⟩ := canonical_elementsBehind none t
  exact ⟨(spells_elements t).text, .node parted canonical⟩

/-- Openers that open nothing are one token with the text around them. -/
example : elements "a ** b 2 * 3".toList = [.token .text "a ** b 2 * 3".toList] := by
  decide +kernel

end Inline

end TierLint
