import TierLint.Proofs.Path.Respelled
import TierLint.Proofs.Tier.Patterns

/-!
# Classification goes by what a path means

A classifier looks at a path only through the names that lead from its root to the place the path
resolves to (`classify_congr`). So the spelling of a path does not matter, nor whether it is
written as seen from the root or behind it; and a path that does not resolve to a place below the
root has no tier, whatever the patterns are (`classify_lexical`).
-/

set_option autoImplicit false

namespace TierLint

open LexicalPath

/-! ## Places below a root -/

namespace Path

/-- The path resolves to a place strictly below the root: where some names behind it lead. -/
def LiesBelow (root p : Text) : Prop :=
  ∃ names, names ≠ [] ∧ (∀ n ∈ names, Ordinary n) ∧
    normalized p = normalized (join root (joinSteps names))

/-- Names that are joined to a path stand behind its own. -/
theorem ofText_join_joinSteps (root : Text) {names : List Text} (ne : names ≠ [])
    (h : ∀ n ∈ names, Ordinary n) :
    ofText (join root (joinSteps names)) =
      { ofText root with names := (ofText root).names ++ names } := by
  rw [ofText_join root (isAbsolute_joinSteps fun n hn => ⟨(h n hn).slash, (h n hn).ne_nil⟩),
    splitOn_joinSteps ne fun n hn => (h n hn).slash, follow_names _ h]

theorem liesBelow_iff {root p : Text} (hroot : isAbsolute root = true) (hp : isAbsolute p = true) :
    LiesBelow root p ↔ ∃ names, below? (ofText root) (ofText p) = some names := by
  rw [← absolute_ofText] at hroot hp
  constructor
  · rintro ⟨names, ne, ordinary, same⟩
    refine ⟨names, (below?_of_absolute hroot hp).2 ⟨ne, ?_⟩⟩
    rw [normalized_inj same, ofText_join_joinSteps root ne ordinary]
  · rintro ⟨names, found⟩
    obtain ⟨ne, behind⟩ := (below?_of_absolute hroot hp).1 found
    have ordinary : ∀ n ∈ names, Ordinary n := by
      intro n hn
      apply (reduced_ofText p).names
      rw [behind]
      exact List.mem_append_right _ hn
    refine ⟨names, ne, ordinary, congrArg toText ?_⟩
    -- neither of the two absolute paths has steps up
    have ups : (ofText root).ups = (ofText p).ups :=
      ((reduced_ofText root).inside hroot).trans ((reduced_ofText p).inside hp).symm
    rw [ofText_join_joinSteps root ne ordinary, ← behind]
    show ofText p = ⟨(ofText root).absolute, (ofText root).ups, (ofText p).names⟩
    rw [hroot.trans hp.symm, ups]

end Path

/-! ## Classification -/

namespace Classifier

variable {root : Text} {patterns : TierPatterns} {c : Classifier}

/-- Paths with the same names below the root are classified alike. -/
theorem classify_congr (built : build root patterns = .ok c) {p q : Text}
    (same : below? (ofText root) (ofText p) = below? (ofText root) (ofText q)) :
    c.classify p = c.classify q := by
  rw [classify_eq_first built, classify_eq_first built, seenFrom, seenFrom, same]

/-- Paths without names below the root have no tier. -/
theorem classify_eq_none (built : build root patterns = .ok c) {p : Text}
    (outside : below? (ofText root) (ofText p) = none) : c.classify p = .none := by
  rw [classify_eq_first built, seenFrom, outside]
  rfl

/-- A relative path that comes back to where it is seen from, or leaves it, has no tier. -/
theorem classify_eq_none_of_leaves (built : build root patterns = .ok c) {p : Text}
    (relative : Path.isAbsolute p = false)
    (leaves : Path.normalized p = [] ∨ ['.', '.'] ∈ Path.steps (Path.normalized p)) :
    c.classify p = .none := by
  apply classify_eq_none built
  have seen : (ofText p).absolute = false := by rw [absolute_ofText, relative]
  rw [below?_of_relative _ seen, if_neg]
  rintro ⟨inside, names⟩
  obtain ⟨ne, noUp⟩ := Path.names_of_stays relative inside names
  rcases leaves with empty | up
  · exact ne empty
  · exact noUp up

/-- An absolute path that does not lie below an absolute root has no tier. -/
theorem classify_eq_none_of_outside (built : build root patterns = .ok c)
    (absolute : Path.isAbsolute root = true) {p : Text} (hp : Path.isAbsolute p = true)
    (outside : ¬ Path.LiesBelow root p) : c.classify p = .none := by
  apply classify_eq_none built
  rw [Option.eq_none_iff_forall_ne_some]
  intro names found
  exact outside ((Path.liesBelow_iff absolute hp).2 ⟨names, found⟩)

/-- A relative path has the same names below the root as the path joined to the root. -/
theorem below?_join (absolute : Path.isAbsolute root = true) {p : Text}
    (relative : Path.isAbsolute p = false) (inside : (ofText p).ups = 0) :
    below? (ofText root) (ofText (Path.join root p)) = below? (ofText root) (ofText p) := by
  have joined : (ofText (Path.join root p)).absolute = true := by
    rw [absolute_ofText, Path.isAbsolute_join root relative, absolute]
  have seen : (ofText p).absolute = false := by rw [absolute_ofText, relative]
  have rooted : (ofText root).absolute = true := by rw [absolute_ofText, absolute]
  rw [below?_of_relative _ seen]
  have names : (ofText (Path.join root p)).names = (ofText root).names ++ (ofText p).names := by
    rw [ofText_join_of_inside root relative inside]
  by_cases none : (ofText p).names = []
  · rw [if_neg fun h => h.2 none, Option.eq_none_iff_forall_ne_some]
    intro ns found
    obtain ⟨ne, eq⟩ := (below?_of_absolute rooted joined).1 found
    rw [names, none, List.append_cancel_left_eq] at eq
    exact ne eq.symm
  · rw [if_pos ⟨inside, none⟩]
    exact (below?_of_absolute rooted joined).2 ⟨none, names⟩

/-- **Classification is lexical.** Seen from an absolute root, a relative path that does not leave
its place is classified like the same path joined to the root; respelled paths are classified alike,
and normal forms are normal; a path that does not resolve to a place strictly below the root has no
tier, whatever the patterns are. -/
theorem classify_lexical (absolute : Path.isAbsolute root = true)
    (built : build root patterns = .ok c) :
    (∀ p, Path.isAbsolute p = false → ['.', '.'] ∉ Path.steps (Path.normalized p) →
      c.classify (Path.join root p) = c.classify p) ∧
    (∀ p q, Relation.EqvGen Path.Respelled p q → c.classify p = c.classify q) ∧
    (∀ p, Path.normalized (Path.normalized p) = Path.normalized p) ∧
    (∀ p, Path.isAbsolute p = true → ¬ Path.LiesBelow root p → c.classify p = .none) ∧
    (∀ p, Path.isAbsolute p = false →
      (Path.normalized p = [] ∨ (Path.steps (Path.normalized p)).head? = some ['.', '.']) →
      c.classify p = .none) := by
  refine ⟨?_, ?_, Path.normalized_normalized, ?_, ?_⟩
  · intro p relative noUp
    have inside := Path.ups_eq_zero relative noUp
    exact classify_congr built (below?_join absolute relative inside)
  · intro p q respelled
    apply classify_congr built
    rw [Path.ofText_eq_of_respelled respelled]
  · intro p hp outside
    exact classify_eq_none_of_outside built absolute hp outside
  · intro p relative leaves
    exact classify_eq_none_of_leaves built relative (leaves.imp_right List.mem_of_mem_head?)

/-- A rule of a repository, written in three ways, and paths beside the repository. -/
theorem classify_lexical_of_repo :
    ∃ c, build "/repo".toList ⟨["rules/*".toList], [], []⟩ = .ok c ∧
      c.classify "rules/x".toList = .strict ∧
      c.classify (Path.join "/repo".toList "rules/x".toList) = .strict ∧
      c.classify "rules/a/../x".toList = .strict ∧
      c.classify "/elsewhere/rules/x".toList = .none ∧
      c.classify "../rules/x".toList = .none := by
  have ok : (build "/repo".toList ⟨["rules/*".toList], [], []⟩).isOk = true := by decide +kernel
  have taken : (build "/repo".toList ⟨["rules/*".toList], [], []⟩).toOption.map
      (·.classify "rules/x".toList) = some .strict := by decide +kernel
  obtain ⟨c, built⟩ := exists_of_isOk ok
  rw [built] at taken
  have strict : c.classify "rules/x".toList = .strict := Option.some.inj taken
  have absolute : Path.isAbsolute "/repo".toList = true := by decide
  obtain ⟨joined, respelled, -, outside, leaving⟩ := classify_lexical absolute built
  refine ⟨c, built, strict, ?_, ?_, ?_, ?_⟩
  · rw [joined _ (by decide) (by decide), strict]
  · -- a name and back between the two steps
    have ordinary : Path.Idle ("a".toList ++ ['/', '.', '.']) :=
      .back ⟨by decide, by decide, by decide, by decide⟩
    rw [← strict]
    apply respelled
    apply Relation.EqvGen.symm
    apply Relation.EqvGen.rel
    exact .inserted "rules".toList (b := "x".toList) ordinary (by decide)
  · apply outside _ (by decide)
    rw [Path.liesBelow_iff absolute (by decide)]
    rintro ⟨names, found⟩
    have none : below? (ofText "/repo".toList) (ofText "/elsewhere/rules/x".toList) = none := by
      decide
    rw [none] at found
    cases found
  · exact leaving _ (by decide) (.inr (by decide))

end Classifier

end TierLint
