import TierLint.Inline.Elements
import TierLint.Proofs.Syntax.Spelling
import TierLint.Proofs.Text.Run

/-!
# Running text is spelled by its elements

The elements of running text make it up, whatever constructs it holds (`Inline.spells_elements`).
A construct is spelled as it was read, if the running text inside it is.
-/

set_option autoImplicit false

namespace TierLint

open Element

theorem Markup.spells_element {m : Markup} {inside : List Element}
    (h : Spells (tokensOf inside) m.inner) : Spells (m.element inside).tokens m.source := by
  cases m with
  | escape c => exact .token (by decide) _
  | codeSpan s =>
    have parts := ((Spells.token (k := .codeSpanMarker) (by decide) s.marker).append
      (Spells.tokenUnlessEmpty (k := .text) (by decide) s.content)).append
      (Spells.token (k := .codeSpanMarker) (by decide) s.marker)
    simpa [element, source, CodeSpan.source] using parts
  | autolink a => exact .token (by decide) _
  | image l =>
    have parts := ((Spells.token (k := .imageStart) (by decide) ['!', '[']).append
      (Spells.tokenUnlessEmpty (k := .imageText) (by decide) l.label)).append
      (Spells.token (k := .linkDestination) (by decide) l.tail)
    simpa [element, source, Link.source] using parts
  | link l =>
    have parts := ((Spells.token (k := .linkStart) (by decide) ['[']).append h).append
      (Spells.token (k := .linkDestination) (by decide) l.tail)
    simpa [element, source, Link.source, inner] using parts
  | emphasis e =>
    have mark : (if e.strong then Kind.strongMarker else .emphasisMarker) ≠ .newline := by
      split <;> decide
    have parts := ((Spells.token mark e.marker).append h).append (Spells.token mark e.marker)
    simpa [element, source, Emphasis.source, inner] using parts

namespace Inline

theorem spells_consText {es : List Element} {u : Text} (h : Spells (tokensOf es) u) (t : Text) :
    Spells (tokensOf (consText t es)) (t ++ u) := by
  unfold consText
  split
  · rename_i v es
    refine ⟨?_, fun x hx => ?_⟩
    · simpa using congrArg (t ++ ·) h.text
    · rcases List.mem_cons.1 (show x ∈ (.text, t ++ v) :: tokensOf es by simpa using hx) with
        rfl | hx
      · exact Kind.noConfusion
      · exact h.inside x (by simp [hx])
  · exact (Spells.token (by decide) t).append h

/-- What is literal together with a character is more of it. -/
theorem replicate_literalRepeats (c : Char) (rest : Text) :
    List.replicate (literalRepeats c rest) c = rest.take (literalRepeats c rest) := by
  unfold literalRepeats
  split
  · exact (Text.take_runLength c rest).symm
  · rfl

theorem spells_elementsBehind (before : Option Char) (t : Text) :
    Spells (tokensOf (elementsBehind before t)) t := by
  fun_induction elementsBehind before t with
  | case1 => exact .nil
  | case2 before c rest m after h inner behind =>
    rw [tokensOf_cons]
    exact ((Markup.spells_element inner).append behind).of_eq (Markup.eq_of_read? h).symm
  | case3 before c rest h n ih =>
    refine (spells_consText ih _).of_eq ?_
    rw [Nat.add_comm, List.replicate_succ, List.cons_append, replicate_literalRepeats,
      List.take_append_drop]

theorem textOf_elementsBehind (before : Option Char) (t : Text) :
    textOf (elementsBehind before t) = t := by
  rw [textOf_eq_flatMap]
  exact (spells_elementsBehind before t).text

/-- The elements of running text spell it. -/
theorem spells_elements (t : Text) : Spells (tokensOf (elements t)) t :=
  spells_elementsBehind none t

end Inline

end TierLint
