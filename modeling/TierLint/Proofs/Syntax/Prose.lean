import TierLint.Proofs.Syntax.Alike
import TierLint.Proofs.Text.Rebroken
import TierLint.Syntax.Prose

/-!
# Prose of trees that are alike

White space in front of lines and quote markers are no prose, and line ends are kept as they are. So
the prose of sequences that are alike differs in line breaks at most (`Alike.rebroken`).
-/

set_option autoImplicit false

namespace TierLint

open Element

@[simp] theorem Element.proseOf_cons (e : Element) (es : List Element) :
    proseOf (e :: es) = e.prose ++ proseOf es := rfl

theorem Element.prose_of_isFiller {k : Kind} (hk : k.isFiller = true) (t : Text) :
    (Element.token k t).prose = [] := by
  cases k <;> first | rfl | cases hk

/-- The prose of sequences that are alike is one text, up to the form of its line breaks. -/
theorem Alike.rebroken {w : Slack} {last : Bool} {es fs : List Element} (h : Alike w last es fs) :
    Rebroken w.lineEnds last (proseOf es) (proseOf fs) := by
  induction h with
  | nil => exact .nil
  | token _ ih =>
    rw [proseOf_cons, proseOf_cons]
    exact .append (.refl _) ih
  | @node last k inside inside' es fs _ alike ihInside ih =>
    rw [proseOf_cons, proseOf_cons, prose, prose]
    refine .append ?_ ih
    -- behind a node that ends both sequences there is no prose
    rcases ends_or last es fs with ⟨rfl, rfl⟩ | inner
    · exact ihInside
    · rw [inner] at ihInside
      exact ihInside.weaken
  | filler _ hk _ _ ih =>
    rw [proseOf_cons, prose_of_isFiller (Slack.isFiller_of_frees hk)]
    exact ih
  | filler' _ hk _ _ ih =>
    rw [proseOf_cons, prose_of_isFiller (Slack.isFiller_of_frees hk)]
    exact ih
  | lineEnd free _ ih => exact .crlf free ih
  | finalEnd free => exact .final free rfl

end TierLint
