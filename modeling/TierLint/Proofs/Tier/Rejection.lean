import TierLint.Proofs.Glob.WellFormed
import TierLint.Proofs.Tier.Patterns

/-!
# Rejected patterns

A classifier is meant to be rejected exactly for patterns that are no globs, and then for the first
of them (`Classifier.RejectsExactly`). What is read is more: behind each pattern also its segments
that begin with a period, each by itself (`TierPatterns.texts`). The first of all these texts that
is no glob is reported (`Classifier.failure?_build`), and it may be a segment of a pattern that is a
glob (`Classifier.rejects_group_across_segments`).

So what is meant holds exactly if the first such text is the first such pattern
(`Classifier.rejectsExactly_iff`). It is if slashes of patterns do nothing but separate segments.
-/

set_option autoImplicit false

namespace TierLint

/-- How a text fails as a glob of a tier, if it does. -/
def flaw? (x : Tier × Text) : Option PatternError := failure? (PathPattern.glob x.1 x.2)

theorem flaw?_eq_none_iff {x : Tier × Text} : flaw? x = none ↔ ∃ g, Glob.parse x.2 = .ok g := by
  rw [flaw?, failure?_eq_none_iff, PathPattern.glob]
  cases Glob.parse x.2 with
  | error reason =>
    constructor
    · rintro ⟨g, ⟨⟩⟩
    · rintro ⟨g, ⟨⟩⟩
  | ok g => exact ⟨fun _ => ⟨g, rfl⟩, fun _ => ⟨g, rfl⟩⟩

theorem flaw?_eq_some_iff {x : Tier × Text} {e : PatternError} :
    flaw? x = some e ↔ x = (e.tier, e.pattern) ∧ Glob.parse e.pattern = .error e.reason := by
  obtain ⟨tier, t⟩ := x
  obtain ⟨tier', pattern, reason⟩ := e
  rw [flaw?, failure?_eq_some_iff, PathPattern.glob]
  constructor
  · intro h
    cases read : Glob.parse t with
    | error reason' =>
      rw [read] at h
      cases h
      exact ⟨rfl, read⟩
    | ok g =>
      rw [read] at h
      cases h
  · rintro ⟨same, read⟩
    cases same
    rw [show Glob.parse pattern = .error reason from read]
    rfl

namespace TierPatterns

/-- The patterns of all tiers in their order. -/
def listed (patterns : TierPatterns) : List (Tier × Text) :=
  [Tier.strict, .moderate, .light].flatMap fun tier => (patterns.ofTier tier).map (tier, ·)

/-- The texts that are read as globs for a pattern: it, and its segments that begin with a
period. -/
def textsOf (x : Tier × Text) : List (Tier × Text) := (x.2 :: hiddenSegments x.2).map (x.1, ·)

/-- The texts that are read as globs, in their order. -/
def texts (patterns : TierPatterns) : List (Tier × Text) := patterns.listed.flatMap textsOf

end TierPatterns

open TierPatterns

theorem findSome?_flatMap {α β γ : Type} (f : β → Option γ) (g : α → List β) (xs : List α) :
    (xs.flatMap g).findSome? f = xs.findSome? fun x => (g x).findSome? f := by
  induction xs with
  | nil => rfl
  | cons x xs ih =>
    rw [List.flatMap_cons, List.findSome?_append, ih, List.findSome?_cons]
    cases (g x).findSome? f <;> rfl

/-! ## What is reported -/

/-- A pattern fails as the first of its texts that is no glob. -/
theorem PathPattern.failure?_parse (tier : Tier) (t : Text) :
    failure? (PathPattern.parse tier t) = (textsOf (tier, t)).findSome? flaw? := by
  have hidden : ∀ whole, failure? (do
      let hidden ← (hiddenSegments t).mapM (glob tier)
      (.ok ⟨whole, hidden⟩ : Except PatternError PathPattern)) =
        (hiddenSegments t).findSome? fun s => flaw? (tier, s) := by
    intro whole
    have last : ∀ hidden, failure? (.ok ⟨whole, hidden⟩ : Except PatternError PathPattern) = none :=
      fun _ => rfl
    rw [failure?_bind last, failure?_mapM, Option.or_none]
    rfl
  rw [PathPattern.parse, failure?_bind hidden, textsOf, List.map_cons, List.findSome?_cons,
    List.findSome?_map]
  show (flaw? (tier, t)).or _ = _
  cases flaw? (tier, t) with
  | none => rfl
  | some e => rfl

namespace Classifier

/-- A classifier fails as the first text that is no glob. -/
theorem failure?_build (root : Text) (patterns : TierPatterns) :
    failure? (build root patterns) = patterns.texts.findSome? flaw? := by
  have read : ∀ tier, failure? ((patterns.ofTier tier).mapM (PathPattern.parse tier)) =
      ((patterns.ofTier tier).map (tier, ·)).findSome? fun x => (textsOf x).findSome? flaw? := by
    intro tier
    rw [failure?_mapM, List.findSome?_map]
    congr 1
    funext t
    exact PathPattern.failure?_parse tier t
  have built : ∀ (strict moderate light : List PathPattern),
      failure? (.ok ⟨LexicalPath.ofText root, strict, moderate, light⟩ :
        Except PatternError Classifier) = none := fun _ _ _ => rfl
  have lights := fun strict moderate =>
    failure?_bind (x := patterns.light.mapM (PathPattern.parse .light)) (built strict moderate)
  have moderates := fun strict =>
    failure?_bind (x := patterns.moderate.mapM (PathPattern.parse .moderate)) (lights strict)
  have inOrder : patterns.listed = (patterns.ofTier .strict).map (Tier.strict, ·) ++
      ((patterns.ofTier .moderate).map (Tier.moderate, ·) ++
        (patterns.ofTier .light).map (Tier.light, ·)) := by
    simp [listed]
  rw [texts, findSome?_flatMap, inOrder, List.findSome?_append, List.findSome?_append,
    ← read .strict, ← read .moderate, ← read .light, build, failure?_bind moderates, Option.or_none]
  rfl

/-- A classifier is rejected exactly if some pattern is no glob, and then for the first such
pattern. -/
structure RejectsExactly (root : Text) (patterns : TierPatterns) : Prop where
  built : (∃ c, build root patterns = .ok c) ↔ ∀ x ∈ patterns.listed, ∃ g, Glob.parse x.2 = .ok g
  named : ∀ e, build root patterns = .error e →
    ∃ before after, patterns.listed = before ++ (e.tier, e.pattern) :: after ∧
      (∀ x ∈ before, ∃ g, Glob.parse x.2 = .ok g) ∧ Glob.parse e.pattern = .error e.reason

/-- That is, it fails as the first pattern that is no glob. -/
theorem rejectsExactly_iff_failure? {root : Text} {patterns : TierPatterns} :
    RejectsExactly root patterns ↔
      failure? (build root patterns) = patterns.listed.findSome? flaw? := by
  have flawless : (∀ x ∈ patterns.listed, ∃ g, Glob.parse x.2 = .ok g) ↔
      patterns.listed.findSome? flaw? = none := by
    rw [List.findSome?_eq_none_iff]
    exact forall_congr' fun x => imp_congr_right fun _ => flaw?_eq_none_iff.symm
  have first : ∀ e, patterns.listed.findSome? flaw? = some e ↔
      ∃ before after, patterns.listed = before ++ (e.tier, e.pattern) :: after ∧
        (∀ x ∈ before, ∃ g, Glob.parse x.2 = .ok g) ∧ Glob.parse e.pattern = .error e.reason := by
    intro e
    rw [List.findSome?_eq_some_iff]
    constructor
    · rintro ⟨before, x, after, split, flawed, valid⟩
      obtain ⟨rfl, read⟩ := flaw?_eq_some_iff.1 flawed
      exact ⟨before, after, split, fun y hy => flaw?_eq_none_iff.1 (valid y hy), read⟩
    · rintro ⟨before, after, split, valid, read⟩
      exact ⟨before, _, after, split, flaw?_eq_some_iff.2 ⟨rfl, read⟩,
        fun y hy => flaw?_eq_none_iff.2 (valid y hy)⟩
  constructor
  · intro exact_
    cases outcome : build root patterns with
    | ok c => exact (flawless.1 (exact_.built.1 ⟨c, outcome⟩)).symm
    | error e => exact ((first e).2 (exact_.named e outcome)).symm
  · intro same
    refine ⟨?_, fun e outcome => ?_⟩
    · rw [flawless, ← same, failure?_eq_none_iff]
    · rw [← first, ← same, outcome]
      rfl

/-- Where segments of globs are globs, no other texts than the patterns count. -/
theorem findSome?_texts {patterns : TierPatterns}
    (segments : ∀ x ∈ patterns.listed, (Glob.parse x.2).isOk = true →
      ∀ s ∈ hiddenSegments x.2, (Glob.parse s).isOk = true) :
    patterns.texts.findSome? flaw? = patterns.listed.findSome? flaw? := by
  rw [texts, findSome?_flatMap]
  generalize patterns.listed = xs at segments ⊢
  induction xs with
  | nil => rfl
  | cons x xs ih =>
    have first : (textsOf x).findSome? flaw? = flaw? x := by
      rw [textsOf, List.map_cons, List.findSome?_cons]
      cases flawed : flaw? (x.1, x.2) with
      | some e => rfl
      | none =>
        obtain ⟨g, read⟩ := flaw?_eq_none_iff.1 flawed
        have valid := segments x List.mem_cons_self (congrArg Except.isOk read)
        show ((hiddenSegments x.2).map (x.1, ·)).findSome? flaw? = none
        rw [List.findSome?_map, List.findSome?_eq_none_iff]
        intro s hs
        exact flaw?_eq_none_iff.2 (exists_of_isOk (valid s hs))
    rw [List.findSome?_cons, List.findSome?_cons, first,
      ih fun y hy => segments y (List.mem_cons_of_mem x hy)]

/-- **Rejected patterns.** A classifier fails as the first text that is no glob, among all patterns
with their segments that begin with a period behind them. So it is rejected exactly for patterns
that are no globs, and for the first of them, exactly if this text is the first pattern that is
none. It is if slashes of patterns do nothing but separate segments: if none stands in a class, in a
group or behind a backslash. -/
theorem rejectsExactly_iff (root : Text) (patterns : TierPatterns) :
    failure? (build root patterns) = patterns.texts.findSome? flaw? ∧
    (RejectsExactly root patterns ↔
      patterns.texts.findSome? flaw? = patterns.listed.findSome? flaw?) ∧
    ((∀ x ∈ patterns.listed, Glob.slashesSeparate 0 x.2 = true) →
      RejectsExactly root patterns) := by
  have iff : RejectsExactly root patterns ↔
      patterns.texts.findSome? flaw? = patterns.listed.findSome? flaw? := by
    rw [rejectsExactly_iff_failure?, failure?_build]
  refine ⟨failure?_build root patterns, iff, fun separate => iff.2 (findSome?_texts ?_)⟩
  intro x hx valid s hs
  exact Glob.isOk_parse_of_mem_splitOn valid (separate x hx) (List.mem_of_mem_filter hs)

/-- A group with a slash in it makes a glob, but the classifier is rejected for what stands in front
of that slash. -/
theorem rejects_group_across_segments :
    (∃ g, Glob.parse ".\x7ba,b/c\x7d/x".toList = .ok g) ∧
      build "/repo".toList ⟨[".\x7ba,b/c\x7d/x".toList], [], []⟩ =
        .error ⟨.strict, ".\x7ba,b".toList, .unclosedAlternatives⟩ ∧
      ¬ RejectsExactly "/repo".toList ⟨[".\x7ba,b/c\x7d/x".toList], [], []⟩ := by
  have valid : (Glob.parse ".\x7ba,b/c\x7d/x".toList).isOk = true := by decide +kernel
  have rejected : build "/repo".toList ⟨[".\x7ba,b/c\x7d/x".toList], [], []⟩ =
      .error ⟨.strict, ".\x7ba,b".toList, .unclosedAlternatives⟩ :=
    failure?_eq_some_iff.1 (by decide +kernel)
  obtain ⟨g, hg⟩ := exists_of_isOk valid
  refine ⟨⟨g, hg⟩, rejected, fun exact_ => ?_⟩
  -- every pattern is a glob, so the classifier would have to be built
  obtain ⟨c, built⟩ := exact_.built.2 fun x hx => by
    obtain rfl := List.mem_singleton.1 hx
    exact ⟨g, hg⟩
  rw [rejected] at built
  cases built

end Classifier

end TierLint
