import TierLint.Proofs.Glob.Alignment
import TierLint.Proofs.Tier.Patterns

/-!
# Hidden segments of a path

A pattern is meant to reach a segment that begins with a period only with a segment that begins with
a period itself (`Spelled`). What is tested is less: the pattern matches the path, and each hidden
segment of the path is matched by some segment of the pattern that begins with a period, wherever
it stands. So one such segment can speak for several of the path, and a wildcard reaches the others
(`accepts_hidden_segment_below_double_star`).

The test finds what is meant exactly for patterns that have as many segments with a period as the
path has hidden ones (`PathPattern.spelledOut_iff`): in every alignment each of them takes one
hidden segment of the path (`length_hidden_le`), so in equal numbers they take all.
-/

set_option autoImplicit false

namespace TierLint

open Glob

/-- A hidden segment is taken by a segment that begins with a period. -/
def Spelled (p x : Text) : Prop := isHidden x = true → isHidden p = true

/-! ## Counting hidden segments -/

/-- A segment that begins with a period matches only segments that do. -/
theorem isHidden_of_accepts {p x : Text} (flat : Flat p) (plain : p ≠ directories) {g : Glob}
    (hg : Glob.parse p = .ok g) (accepted : g.accepts x = true) (hidden : isHidden p = true) :
    isHidden x = true := by
  cases p with
  | nil => cases hidden
  | cons c p =>
    obtain rfl : c = '.' := by simpa [isHidden, Text.startsBy] using hidden
    rw [parse_segment flat plain] at hg
    obtain ⟨ts, hts, rfl⟩ := exists_of_map_eq_ok hg
    rw [segmentTokens] at hts
    · -- the period is the first token, and stands for the first byte
      obtain ⟨us, -, rfl⟩ := exists_of_map_eq_ok hts
      rcases accepts_iff.1 accepted with alone | takes
      · simp at alone
      · obtain ⟨v, w, eq, hv, -⟩ := takes
        rw [eq_singleton_of_takes (by decide) hv] at eq
        have eq : x.bytes = [] ++ UInt8.ofNat '.'.toNat :: w := eq
        obtain ⟨a, c, r, rfl, ha, -, code⟩ :=
          Text.cut_of_bytes (show (UInt8.ofNat '.'.toNat).toNat < 128 by decide) eq
        obtain rfl := eq_nil_of_bytes ha
        obtain rfl : c = '.' := Char.toNat_inj.1 code
        rfl
    all_goals simp

/-- In an alignment, each segment of the pattern that begins with a period takes a hidden segment of
the path. -/
theorem length_hidden_le {ps xs : List Text} (h : Aligned Anywhere ps xs)
    (flat : ∀ p ∈ ps, Flat p) :
    (ps.filter isHidden).length ≤ (xs.filter isHidden).length := by
  induction h with
  | nil => exact Nat.le_refl _
  | blank _ ih =>
    rw [List.filter_cons_of_neg (by decide)]
    apply ih
    intro p hp
    exact flat p (List.mem_cons_of_mem _ hp)
  | @one p x ps xs g plain hg accepted _ _ ih =>
    have later := ih fun p hp => flat p (List.mem_cons_of_mem _ hp)
    cases hidden : isHidden p with
    | true =>
      have taken := isHidden_of_accepts (flat p List.mem_cons_self) plain hg accepted hidden
      rw [List.filter_cons_of_pos hidden, List.filter_cons_of_pos taken]
      exact Nat.succ_le_succ later
    | false =>
      -- the segment of the path may be hidden or not
      rw [List.filter_cons_of_neg (by simp [hidden])]
      exact Nat.le_trans later ((List.sublist_cons_self x xs).filter isHidden).length_le
  | directories taken _ _ ih =>
    -- a double star has no period, whatever it takes
    rw [List.filter_cons_of_neg (by decide), List.filter_append, List.length_append]
    exact Nat.le_trans (ih fun p hp => flat p (List.mem_cons_of_mem _ hp)) (Nat.le_add_left ..)

/-- In equal numbers, they take all hidden segments. -/
theorem spelled_of_length_hidden {ps xs : List Text} (h : Aligned Anywhere ps xs)
    (flat : ∀ p ∈ ps, Flat p)
    (same : (ps.filter isHidden).length = (xs.filter isHidden).length) : Aligned Spelled ps xs := by
  induction h with
  | nil => exact .nil
  | blank _ ih =>
    rw [List.filter_cons_of_neg (by decide)] at same
    exact .blank (ih (fun p hp => flat p (List.mem_cons_of_mem _ hp)) same)
  | @one p x ps xs g plain hg accepted _ rest ih =>
    have flat' : ∀ q ∈ ps, Flat q := fun q hq => flat q (List.mem_cons_of_mem _ hq)
    cases hidden : isHidden p with
    | true =>
      have taken := isHidden_of_accepts (flat p List.mem_cons_self) plain hg accepted hidden
      rw [List.filter_cons_of_pos hidden, List.filter_cons_of_pos taken] at same
      exact .one plain hg accepted (fun _ => hidden) (ih flat' (Nat.succ.inj same))
    | false =>
      rw [List.filter_cons_of_neg (by simp [hidden])] at same
      have fewer := length_hidden_le rest flat'
      -- otherwise the path has one hidden segment more than the pattern can take
      have visible : ¬ isHidden x = true := by
        intro taken
        rw [List.filter_cons_of_pos taken, List.length_cons] at same
        omega
      rw [List.filter_cons_of_neg visible] at same
      exact .one plain hg accepted (fun taken => absurd taken visible) (ih flat' same)
  | @directories ps xs taken _ rest ih =>
    have flat' : ∀ q ∈ ps, Flat q := fun q hq => flat q (List.mem_cons_of_mem _ hq)
    rw [List.filter_cons_of_neg (by decide), List.filter_append, List.length_append] at same
    have fewer := length_hidden_le rest flat'
    -- what the double star takes would be too many
    have none : taken.filter isHidden = [] := List.eq_nil_of_length_eq_zero (by omega)
    apply Aligned.directories taken
    · intro x hx hidden
      exact absurd hidden (List.filter_eq_nil_iff.1 none x hx)
    · exact ih flat' (by omega)

/-- If hidden segments are spelled out, there are equal numbers of them. -/
theorem length_hidden_of_spelled {ps xs : List Text} (h : Aligned Spelled ps xs)
    (flat : ∀ p ∈ ps, Flat p) :
    (ps.filter isHidden).length = (xs.filter isHidden).length := by
  induction h with
  | nil => rfl
  | blank _ ih =>
    rw [List.filter_cons_of_neg (by decide)]
    apply ih
    intro p hp
    exact flat p (List.mem_cons_of_mem _ hp)
  | @one p x ps xs g plain hg accepted spelled _ ih =>
    have later := ih fun p hp => flat p (List.mem_cons_of_mem _ hp)
    cases hidden : isHidden p with
    | true =>
      have taken := isHidden_of_accepts (flat p List.mem_cons_self) plain hg accepted hidden
      rw [List.filter_cons_of_pos hidden, List.filter_cons_of_pos taken, List.length_cons,
        List.length_cons, later]
    | false =>
      have visible : ¬ isHidden x = true := by
        intro taken
        rw [spelled taken] at hidden
        exact Bool.false_ne_true hidden.symm
      rw [List.filter_cons_of_neg (by simp [hidden]), List.filter_cons_of_neg visible, later]
  | directories taken spelled _ ih =>
    have none : taken.filter isHidden = [] := by
      rw [List.filter_eq_nil_iff]
      intro x hx hidden
      exact absurd (spelled x hx hidden) (by decide)
    rw [List.filter_cons_of_neg (by decide), List.filter_append, none]
    apply ih
    intro p hp
    exact flat p (List.mem_cons_of_mem _ hp)

/-- What is aligned under a condition is aligned without it. -/
theorem Glob.Aligned.anywhere {ps xs : List Text} (h : Aligned Spelled ps xs) :
    Aligned Anywhere ps xs := by
  induction h with
  | nil => exact .nil
  | blank _ ih => exact .blank ih
  | one plain hg accepted _ _ ih => exact .one plain hg accepted trivial ih
  | directories taken _ _ ih => exact .directories taken (fun _ _ => trivial) ih

/-- An alignment in which hidden segments are spelled out is one in which the pattern has a segment
with a period for each of them. -/
theorem aligned_spelled_iff {pattern path : Text} (h : Segmented pattern) :
    Aligned Spelled (Text.splitOn '/' pattern) (Text.splitOn '/' path) ↔
      Aligned Anywhere (Text.splitOn '/' pattern) (Text.splitOn '/' path) ∧
        (hiddenSegments pattern).length = (hiddenSegments path).length := by
  constructor
  · intro aligned
    exact ⟨aligned.anywhere, length_hidden_of_spelled aligned h.flat⟩
  · rintro ⟨aligned, same⟩
    exact spelled_of_length_hidden aligned h.flat same

/-! ## Patterns of a tier -/

/-- The pattern has no class that takes a slash. -/
def ClassesStayInSegments (pattern : Text) : Prop :=
  ∀ p ∈ Text.splitOn '/' pattern, ∀ g, Glob.parse p = .ok g → ClassesInSegment g

namespace PathPattern

/-- A path that a pattern accepts can be aligned with it. -/
theorem aligned_of_accepts {tier : Tier} {pattern path : Text} (h : Segmented pattern)
    (classes : ClassesStayInSegments pattern) (accepted : tier.accepts pattern path = true) :
    Aligned Anywhere (Text.splitOn '/' pattern) (Text.splitOn '/' path) := by
  rw [Tier.accepts] at accepted
  cases read : PathPattern.parse tier pattern with
  | error e =>
    rw [read] at accepted
    cases accepted
  | ok p =>
    rw [read] at accepted
    have matched : p.accepts path = true := accepted
    exact Glob.aligned_of_accepts h classes (whole_of_parse read) (Bool.and_eq_true_iff.1 matched).1

/-- Some accepting pattern can be aligned with the path so that hidden segments are spelled out. -/
def SpelledOut (tier : Tier) (patterns : List Text) (path : Text) : Prop :=
  ∃ t ∈ patterns, tier.accepts t path = true ∧
    Aligned Spelled (Text.splitOn '/' t) (Text.splitOn '/' path)

/-- **Hidden segments.** If a tier accepts a path, some accepting pattern can be aligned with the
path so that hidden segments are spelled out: this holds exactly if, whenever a pattern accepts the
path, one that can be aligned with it does that has as many segments with a period as the path has
hidden ones. Without classes that take a slash, the numbers alone decide. -/
theorem spelledOut_iff {tier : Tier} {patterns : List Text} {ps : List PathPattern}
    (h : patterns.mapM (PathPattern.parse tier) = .ok ps) (segmented : ∀ t ∈ patterns, Segmented t)
    (path : Text) :
    ((ps.any (·.accepts path) = true → SpelledOut tier patterns path) ↔
      ∀ t ∈ patterns, tier.accepts t path = true →
        ∃ t' ∈ patterns, tier.accepts t' path = true ∧
          Aligned Anywhere (Text.splitOn '/' t') (Text.splitOn '/' path) ∧
          (hiddenSegments t').length = (hiddenSegments path).length) ∧
    ((∀ t ∈ patterns, ClassesStayInSegments t) →
      ((ps.any (·.accepts path) = true → SpelledOut tier patterns path) ↔
        ∀ t ∈ patterns, tier.accepts t path = true →
          ∃ t' ∈ patterns, tier.accepts t' path = true ∧
            (hiddenSegments t').length = (hiddenSegments path).length)) := by
  have some : ∀ C : Prop, ((∃ t ∈ patterns, tier.accepts t path = true) → C) ↔
      ∀ t ∈ patterns, tier.accepts t path = true → C := by
    intro C
    constructor
    · intro all t ht accepted
      exact all ⟨t, ht, accepted⟩
    · rintro all ⟨t, ht, accepted⟩
      exact all t ht accepted
  have spelled : SpelledOut tier patterns path ↔ ∃ t ∈ patterns, tier.accepts t path = true ∧
      Aligned Anywhere (Text.splitOn '/' t) (Text.splitOn '/' path) ∧
        (hiddenSegments t).length = (hiddenSegments path).length := by
    refine exists_congr fun t => and_congr_right fun ht => and_congr_right fun _ => ?_
    exact aligned_spelled_iff (segmented t ht)
  rw [any_accepts_iff h path, some, spelled]
  refine ⟨Iff.rfl, fun classes => ?_⟩
  -- a pattern without such classes is aligned with every path that it accepts
  refine forall_congr' fun _ => forall_congr' fun _ => imp_congr_right fun _ => ?_
  refine exists_congr fun t => and_congr_right fun ht => and_congr_right fun accepted => ?_
  exact and_iff_right (aligned_of_accepts (segmented t ht) (classes t ht) accepted)

/-- A hidden directory that the pattern spells out. -/
theorem spelledOut_iff_commands :
    ∃ ps, [".claude/**/*.md".toList].mapM (PathPattern.parse .strict) = .ok ps ∧
      (∀ t ∈ [".claude/**/*.md".toList], Segmented t) ∧
      ((ps.any (·.accepts ".claude/commands/x.md".toList) = true →
          SpelledOut .strict [".claude/**/*.md".toList] ".claude/commands/x.md".toList) ↔
        ∀ t ∈ [".claude/**/*.md".toList], Tier.strict.accepts t ".claude/commands/x.md".toList →
          ∃ t' ∈ [".claude/**/*.md".toList],
            Tier.strict.accepts t' ".claude/commands/x.md".toList = true ∧
            Aligned Anywhere (Text.splitOn '/' t')
              (Text.splitOn '/' ".claude/commands/x.md".toList) ∧
            (hiddenSegments t').length =
              (hiddenSegments ".claude/commands/x.md".toList).length) := by
  have segmented : ∀ t ∈ [".claude/**/*.md".toList], Segmented t := by
    intro t ht
    obtain rfl := List.mem_singleton.1 ht
    exact ⟨by decide, by decide, by decide +kernel⟩
  cases h : [".claude/**/*.md".toList].mapM (PathPattern.parse .strict) with
  | error e =>
    have ok : ([".claude/**/*.md".toList].mapM (PathPattern.parse .strict)).isOk = true := by
      decide +kernel
    rw [h] at ok
    cases ok
  | ok ps => exact ⟨ps, rfl, segmented, (spelledOut_iff h segmented _).1⟩

/-- One segment with a period speaks for two hidden segments of the path, and a double star reaches
the second. -/
theorem accepts_hidden_segment_below_double_star :
    (Classifier.build "/repo".toList ⟨[".claude/commands/**/*.md".toList], [], []⟩).toOption.map
        (·.classify ".claude/commands/.claude/x.md".toList) = some .strict ∧
      Segmented ".claude/commands/**/*.md".toList ∧ '[' ∉ ".claude/commands/**/*.md".toList ∧
      Tier.strict.accepts ".claude/commands/**/*.md".toList
        ".claude/commands/.claude/x.md".toList = true ∧
      ¬ SpelledOut .strict [".claude/commands/**/*.md".toList]
        ".claude/commands/.claude/x.md".toList := by
  have segmented : Segmented ".claude/commands/**/*.md".toList :=
    ⟨by decide, by decide, by decide +kernel⟩
  refine ⟨by decide +kernel, segmented, by decide, by decide +kernel, ?_⟩
  rintro ⟨t, ht, -, aligned⟩
  obtain rfl := List.mem_singleton.1 ht
  have same := ((aligned_spelled_iff segmented).1 aligned).2
  have own : (hiddenSegments ".claude/commands/**/*.md".toList).length = 1 := by decide +kernel
  have found : (hiddenSegments ".claude/commands/.claude/x.md".toList).length = 2 := by
    decide +kernel
  omega

end PathPattern

end TierLint
