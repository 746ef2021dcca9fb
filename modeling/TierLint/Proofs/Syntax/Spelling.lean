import TierLint.Proofs.Syntax.Token

/-!
# Spelling text inside a line

Tokens spell a text if they make it up and none of them is a line end. Everything that is written
inside a line does so: `Spells` is closed under putting tokens one behind the other, and the
builders of `Element` spell the text they are given.
-/

set_option autoImplicit false

namespace TierLint

open Element

/-- The tokens make up the text, and none of them is a line end. -/
structure Spells (ts : List (Kind × Text)) (t : Text) : Prop where
  text : ts.flatMap (·.2) = t
  inside : ∀ x ∈ ts, x.1 ≠ .newline

namespace Spells

theorem nil : Spells [] [] := ⟨rfl, by simp⟩

theorem append {ts us : List (Kind × Text)} {t u : Text} (ht : Spells ts t) (hu : Spells us u) :
    Spells (ts ++ us) (t ++ u) := by
  refine ⟨by rw [List.flatMap_append, ht.text, hu.text], fun x hx => ?_⟩
  rcases List.mem_append.1 hx with hx | hx
  · exact ht.inside x hx
  · exact hu.inside x hx

/-- Tokens spell one text only. -/
theorem of_eq {ts : List (Kind × Text)} {t u : Text} (h : Spells ts t) (eq : t = u) : Spells ts u :=
  eq ▸ h

theorem token {k : Kind} (hk : k ≠ .newline) (t : Text) : Spells [(k, t)] t :=
  ⟨by simp, by simpa using hk⟩

theorem tokenUnlessEmpty {k : Kind} (hk : k ≠ .newline) (t : Text) :
    Spells (tokensOf (Element.tokenUnlessEmpty k t)) t := by
  cases t with
  | nil => exact nil
  | cons c t => simpa [Element.tokenUnlessEmpty] using token hk (c :: t)

theorem spacing (t : Text) : Spells (tokensOf (Element.spacing t)) t :=
  tokenUnlessEmpty (by decide) t

theorem trimmed {k : Kind} (hk : k ≠ .newline) (t : Text) :
    Spells (tokensOf (Element.trimmed k t)) t := by
  have parts := ((spacing (Text.indentation t)).append
    (tokenUnlessEmpty hk (Text.trimEnd (Text.unindented t)))).append
    (spacing ((Text.unindented t).drop (Text.trimEnd (Text.unindented t)).length))
  simp only [Element.trimmed, tokensOf_append]
  exact parts.of_eq (by
    rw [List.append_assoc, Text.trimEnd_append_drop, Text.indentation_append_unindented])

/-- A text without line feeds is spelled by tokens without line feeds. -/
theorem lf_not_mem {ts : List (Kind × Text)} {t : Text} (h : Spells ts t) (hlf : '\n' ∉ t) :
    ∀ x ∈ ts, '\n' ∉ x.2 := by
  intro x hx mem
  exact hlf (h.text ▸ List.mem_flatMap.2 ⟨x, hx, mem⟩)

end Spells

end TierLint
