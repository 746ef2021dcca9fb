import TierLint.Proofs.Outcome
import TierLint.Tier.Classifier

/-!
# Patterns of a tier

A classifier is built exactly if each pattern can be read for its tier (`build_eq_ok_iff`,
`exists_build_iff`). It then gives a path the first tier with a pattern that accepts the path as
seen from the root (`classify_eq_first`); how a pattern is read depends on nothing but its text, so
this speaks of the texts of the patterns alone.
-/

set_option autoImplicit false

namespace TierLint

/-- The pattern can be read for the tier, and matches the path. -/
def Tier.accepts (tier : Tier) (pattern path : Text) : Bool :=
  (PathPattern.parse tier pattern).toOption.any (·.accepts path)

/-- The first tier that satisfies `p`, in the order in which tiers are tried. -/
def Tier.first (p : Tier → Bool) : Tier := ([Tier.strict, .moderate, .light].find? p).getD .none

theorem Tier.first_eq (p : Tier → Bool) :
    Tier.first p =
      if p .strict then .strict
      else if p .moderate then .moderate
      else if p .light then .light
      else .none := by
  cases strict : p .strict <;> cases moderate : p .moderate <;> cases light : p .light <;>
    simp [first, strict, moderate, light]

/-- The patterns of a tier; documents are not assigned to tier none by pattern. -/
def TierPatterns.ofTier (patterns : TierPatterns) : Tier → List Text
  | .strict => patterns.strict
  | .moderate => patterns.moderate
  | .light => patterns.light
  | .none => []

/-- The path as patterns see it from a root. -/
def seenFrom (root path : Text) : Option Text :=
  ((LexicalPath.ofText root).below? (LexicalPath.ofText path)).map fun names =>
    (Path.joinSteps names).map fun c => if c == '\\' then '/' else c

namespace PathPattern

theorem glob_eq_ok {tier : Tier} {pattern : Text} {g : Glob} (h : glob tier pattern = .ok g) :
    Glob.parse pattern = .ok g := by
  rw [glob] at h
  cases read : Glob.parse pattern with
  | error e =>
    rw [read] at h
    cases h
  | ok g' =>
    rw [read] at h
    cases h
    rfl

/-- A tier reads a pattern as the glob of its whole text. -/
theorem whole_of_parse {tier : Tier} {pattern : Text} {p : PathPattern}
    (h : PathPattern.parse tier pattern = .ok p) : Glob.parse pattern = .ok p.whole := by
  rw [PathPattern.parse] at h
  obtain ⟨g, hg, h⟩ := exists_of_bind_eq_ok h
  obtain ⟨hs, -, h⟩ := exists_of_bind_eq_ok h
  cases h
  exact glob_eq_ok hg

/-- The patterns of a tier are tried one behind the other. -/
theorem any_accepts_iff {tier : Tier} {patterns : List Text} {ps : List PathPattern}
    (h : patterns.mapM (PathPattern.parse tier) = .ok ps) (path : Text) :
    ps.any (·.accepts path) = true ↔ ∃ t ∈ patterns, tier.accepts t path = true := by
  have read := forall₂_of_mapM_ok h
  clear h
  induction read with
  | nil => simp
  | @cons t p ts ps hp _ ih =>
    have first : tier.accepts t path = p.accepts path := by
      rw [Tier.accepts, hp]
      rfl
    rw [List.any_cons, Bool.or_eq_true, List.exists_mem_cons_iff, first]
    exact or_congr_right ih

/-- As far as a path is concerned, read patterns are their texts. -/
theorem any_accepts_eq {tier : Tier} {patterns : List Text} {ps : List PathPattern}
    (h : patterns.mapM (PathPattern.parse tier) = .ok ps) (path : Text) :
    ps.any (·.accepts path) = patterns.any (tier.accepts · path) := by
  rw [Bool.eq_iff_iff, any_accepts_iff h path, List.any_eq_true]

end PathPattern

namespace Classifier

/-- A classifier holds its root and what the patterns of each tier are read as. -/
theorem build_eq_ok_iff {root : Text} {patterns : TierPatterns} {c : Classifier} :
    build root patterns = .ok c ↔
      c.root = LexicalPath.ofText root ∧
      patterns.strict.mapM (PathPattern.parse .strict) = .ok c.strict ∧
      patterns.moderate.mapM (PathPattern.parse .moderate) = .ok c.moderate ∧
      patterns.light.mapM (PathPattern.parse .light) = .ok c.light := by
  constructor
  · intro h
    obtain ⟨strict, hstrict, h⟩ := exists_of_bind_eq_ok h
    obtain ⟨moderate, hmoderate, h⟩ := exists_of_bind_eq_ok h
    obtain ⟨light, hlight, h⟩ := exists_of_bind_eq_ok h
    cases h
    exact ⟨rfl, hstrict, hmoderate, hlight⟩
  · rintro ⟨hroot, hstrict, hmoderate, hlight⟩
    obtain ⟨_, strict, moderate, light⟩ := c
    cases hroot
    rw [build, hstrict, hmoderate, hlight]
    rfl

/-- A classifier is built exactly if each pattern can be read. -/
theorem exists_build_iff {root : Text} {patterns : TierPatterns} :
    (∃ c, build root patterns = .ok c) ↔
      ∀ tier, ∀ t ∈ patterns.ofTier tier, ∃ p, PathPattern.parse tier t = .ok p := by
  constructor
  · rintro ⟨c, built⟩ tier
    obtain ⟨-, hstrict, hmoderate, hlight⟩ := build_eq_ok_iff.1 built
    cases tier with
    | strict => exact exists_of_mapM_ok hstrict
    | moderate => exact exists_of_mapM_ok hmoderate
    | light => exact exists_of_mapM_ok hlight
    | none => simp [TierPatterns.ofTier]
  · intro read
    obtain ⟨strict, hstrict⟩ := exists_mapM_eq_ok (read .strict)
    obtain ⟨moderate, hmoderate⟩ := exists_mapM_eq_ok (read .moderate)
    obtain ⟨light, hlight⟩ := exists_mapM_eq_ok (read .light)
    exact ⟨⟨_, strict, moderate, light⟩, build_eq_ok_iff.2 ⟨rfl, hstrict, hmoderate, hlight⟩⟩

/-- The first tier with a pattern that accepts the path as seen from the root is the path's. -/
theorem classify_eq_first {root : Text} {patterns : TierPatterns} {c : Classifier}
    (built : build root patterns = .ok c) (path : Text) :
    c.classify path = Tier.first fun tier =>
      (seenFrom root path).any fun relative =>
        (patterns.ofTier tier).any fun t => tier.accepts t relative := by
  obtain ⟨hroot, hstrict, hmoderate, hlight⟩ := build_eq_ok_iff.1 built
  have seen : c.relative? path = seenFrom root path := by
    rw [relative?, hroot, seenFrom]
  rw [classify, seen]
  cases seenFrom root path with
  | none => rfl
  | some relative =>
    show c.tierOf relative = _
    rw [tierOf, PathPattern.any_accepts_eq hstrict, PathPattern.any_accepts_eq hmoderate,
      PathPattern.any_accepts_eq hlight, Tier.first_eq]
    rfl

end Classifier

end TierLint
