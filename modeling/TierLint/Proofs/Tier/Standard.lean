import TierLint.Proofs.Glob.Directories
import TierLint.Proofs.Tier.Spelling

/-!
# The standard patterns

By the standard patterns, the tier of a path is a matter of its first and last name
(`standardTier`): documents are the Markdown files that are reached without hidden names; those
below the directories of directives and of governance documents and some files of special names
stand out, and all others are light (`classify_standard`).
-/

set_option autoImplicit false

namespace TierLint

open Glob LexicalPath

/-! ## Names -/

/-- The name differs from `s` only in the case of letters. -/
def isCalled (s : String) (name : Text) : Bool := name.foldCase == Text.foldCase s.toList

/-- The name ends in `.md`, in either case. -/
def isMarkdown (name : Text) : Bool := ".md".toList.isSuffixOf name.foldCase

/-- No name begins with a period, and the last is that of a Markdown file. -/
def leadToDocument (names : List Text) : Bool :=
  !names.any isHidden && isMarkdown (names.getLastD [])

/-- The names lead to a place below the directory. -/
def leadBelow (dir : String) (names : List Text) : Bool :=
  decide (2 ≤ names.length) && isCalled dir (names.headD [])

/-- The names are the name of the file alone. -/
def areAlone (file : String) (names : List Text) : Bool :=
  names.length == 1 && isCalled file (names.headD [])

/-- The tier of the path with these names, by the standard patterns. -/
def standardTier (names : List Text) : Tier :=
  if !leadToDocument names then .none
  else if leadBelow "commands" names || leadBelow "rules" names
      || leadBelow "skills" names && isCalled "SKILL.md" (names.getLastD [])
      || leadBelow "agents" names && isCalled "AGENT.md" (names.getLastD [])
      || areAlone "AGENTS.md" names || areAlone "CLAUDE.md" names then .strict
  else if leadBelow "governance" names || leadBelow "config-sync" names
      || leadBelow "agent-ops" names then .moderate
  else .light

theorem isCalled_iff {s : String} {name : Text} :
    isCalled s name = true ↔ name.foldCase = Text.foldCase s.toList := beq_iff_eq

/-- A file called like a Markdown file is one. -/
theorem isMarkdown_of_isCalled {s : String} (ending : isMarkdown s.toList = true) {name : Text}
    (called : isCalled s name = true) : isMarkdown name = true := by
  rw [isMarkdown, isCalled_iff.1 called]
  exact ending

theorem leadToDocument_iff {names : List Text} :
    leadToDocument names = true ↔
      names.any isHidden = false ∧ isMarkdown (names.getLastD []) = true := by
  rw [leadToDocument, Bool.and_eq_true, Bool.not_eq_true']

theorem leadBelow_iff {dir : String} {names : List Text} :
    leadBelow dir names = true ↔
      2 ≤ names.length ∧ (names.headD []).foldCase = Text.foldCase dir.toList := by
  rw [leadBelow, Bool.and_eq_true, decide_eq_true_eq, isCalled_iff]

theorem areAlone_iff {file : String} {names : List Text} :
    areAlone file names = true ↔ ∃ n, names = [n] ∧ n.foldCase = Text.foldCase file.toList := by
  rw [areAlone, Bool.and_eq_true, beq_iff_eq, List.length_eq_one_iff, isCalled_iff]
  constructor
  · rintro ⟨⟨n, rfl⟩, called⟩
    exact ⟨n, rfl, called⟩
  · rintro ⟨n, rfl, called⟩
    exact ⟨⟨n, rfl⟩, called⟩

/-- Names with a last one are any names at all. -/
theorem exists_last_iff {names : List Text} (ne : names ≠ []) {q : Text → Prop} :
    (∃ dirs n, names = dirs ++ [n] ∧ q n) ↔ q (names.getLastD []) := by
  constructor
  · rintro ⟨dirs, n, rfl, last⟩
    rwa [List.getLastD_concat]
  · intro last
    rcases List.eq_nil_or_concat' names with rfl | ⟨dirs, n, rfl⟩
    · exact absurd rfl ne
    · rw [List.getLastD_concat] at last
      exact ⟨dirs, n, rfl, last⟩

/-- Names with a first one and a last one apart from it are two at least. -/
theorem exists_ends_iff {names : List Text} {p q : Text → Prop} :
    (∃ d dirs n, names = d :: dirs ++ [n] ∧ p d ∧ q n) ↔
      2 ≤ names.length ∧ p (names.headD []) ∧ q (names.getLastD []) := by
  constructor
  · rintro ⟨d, dirs, n, rfl, first, last⟩
    rw [List.getLastD_concat]
    exact ⟨by simp, first, last⟩
  · rintro ⟨length, first, last⟩
    have ne : names ≠ [] := List.ne_nil_of_length_pos (Nat.lt_of_succ_lt length)
    obtain ⟨front, n, rfl, ending⟩ := (exists_last_iff ne).2 last
    cases front with
    | nil => simp at length
    | cons d dirs => exact ⟨d, dirs, n, rfl, first, ending⟩

/-! ## Patterns without hidden segments -/

/-- The pattern is read as the glob, and has no hidden segments. -/
structure Shows (pattern : Text) (g : Glob) : Prop where
  reads : Glob.parse pattern = .ok g
  shown : hiddenSegments pattern = []

theorem Shows.parse {pattern : Text} {g : Glob} (h : Shows pattern g) (tier : Tier) :
    PathPattern.parse tier pattern = .ok ⟨g, []⟩ := by
  rw [PathPattern.parse, PathPattern.glob, h.reads, h.shown]
  rfl

theorem hiddenSegments_joinSteps {names : List Text} (ne : names ≠ [])
    (single : ∀ n ∈ names, '/' ∉ n) :
    hiddenSegments (Path.joinSteps names) = names.filter isHidden := by
  rw [hiddenSegments, Path.splitOn_joinSteps ne single]

/-- It accepts what the glob matches, if no name is hidden. -/
theorem Shows.accepts_iff {pattern : Text} {g : Glob} (h : Shows pattern g) (tier : Tier)
    {names : List Text} (ne : names ≠ []) (single : ∀ n ∈ names, '/' ∉ n) :
    tier.accepts pattern (Path.joinSteps names) = true ↔
      names.any isHidden = false ∧ g.accepts (Path.joinSteps names) = true := by
  have none : (names.filter isHidden).all (fun s => ([] : List Glob).any (·.accepts s)) = true ↔
      names.any isHidden = false := by
    rw [List.all_eq_true, List.any_eq_false]
    simp
  rw [Tier.accepts, h.parse]
  show (g.accepts _ && (hiddenSegments _).all _) = true ↔ _
  rw [hiddenSegments_joinSteps ne single, Bool.and_eq_true, none, and_comm]

/-- A name that is plain and not hidden. -/
structure IsShownName (s : Text) : Prop where
  plain : IsPlain s
  shown : isHidden s = false

instance (s : Text) : Decidable (IsShownName s) :=
  decidable_of_iff (IsPlain s ∧ isHidden s = false)
    ⟨fun h => ⟨h.1, h.2⟩, fun h => ⟨h.plain, h.shown⟩⟩

/-- The segment for Markdown files of any name. -/
def anyMarkdown : Text := ['*', '.', 'm', 'd']

/-- The files of one kind anywhere below a directory. -/
def filesBelow (dir : String) (file : Text) : Text :=
  Path.joinSteps [dir.toList, directories, file]

theorem isSegment_anyMarkdown : IsSegment anyMarkdown (.many :: ['.', 'm', 'd'].map .literal) :=
  IsPlain.isSegment_star (by decide)

theorem takesAll_anyMarkdown_iff {n : Text} (single : '/' ∉ n) :
    Token.TakesAll n.bytes (.many :: ['.', 'm', 'd'].map .literal) ↔ isMarkdown n = true := by
  rw [takesAll_ending_iff (by decide) single, isMarkdown, List.isSuffixOf_iff_suffix]
  rfl

theorem shows_anywhere :
    Shows (Path.joinSteps [directories, anyMarkdown])
      ⟨.leadingDirs :: .many :: ['.', 'm', 'd'].map .literal⟩ where
  reads := parse_anywhere isSegment_anyMarkdown
  shown := by decide

theorem shows_below {dir : String} {file : Text} {ts : List Token} (hd : IsShownName dir.toList)
    (segment : IsSegment file ts) (shown : isHidden file = false) :
    Shows (filesBelow dir file) ⟨dir.toList.map .literal ++ .innerDirs :: ts⟩ where
  reads := parse_below hd.plain.isSegment segment
  shown := by
    rw [filesBelow, hiddenSegments_joinSteps (List.cons_ne_nil _ _)]
    · simp [hd.shown, shown, show isHidden directories = false from rfl]
    · simp [hd.plain.flat.slash, flat_directories.slash, segment.flat.slash]

theorem shows_alone {file : String} (hf : IsShownName file.toList) :
    Shows file.toList ⟨file.toList.map .literal⟩ where
  reads := parse_alone hf.plain.isSegment
  shown := by
    rw [hiddenSegments, Text.splitOn_eq_singleton_iff.2 ⟨rfl, hf.plain.flat.slash⟩]
    simp [hf.shown]

section Accepts

variable (tier : Tier) {names : List Text} (ne : names ≠ []) (single : ∀ n ∈ names, '/' ∉ n)

include ne single

/-- The last name is a name. -/
theorem last_single : '/' ∉ names.getLastD [] := by
  obtain ⟨dirs, n, rfl⟩ := (List.eq_nil_or_concat' names).resolve_left ne
  rw [List.getLastD_concat]
  exact single n (List.mem_append_right dirs (List.mem_singleton_self n))

/-- Markdown files anywhere. -/
theorem Tier.accepts_anywhere :
    tier.accepts (Path.joinSteps [directories, anyMarkdown]) (Path.joinSteps names) =
      leadToDocument names := by
  have last := last_single ne single
  rw [Bool.eq_iff_iff, shows_anywhere.accepts_iff tier ne single,
    accepts_anywhere_iff isSegment_anyMarkdown (List.cons_ne_nil _ _),
    Path.splitOn_joinSteps ne single, exists_last_iff ne, takesAll_anyMarkdown_iff last,
    leadToDocument_iff]

/-- Files of one kind below a directory. -/
theorem Tier.accepts_below_iff {dir : String} {file : Text} {ts : List Token}
    (hd : IsShownName dir.toList) (segment : IsSegment file ts) (shown : isHidden file = false) :
    tier.accepts (filesBelow dir file) (Path.joinSteps names) = true ↔
      names.any isHidden = false ∧ leadBelow dir names = true ∧
        Token.TakesAll (names.getLastD []).bytes ts := by
  rw [(shows_below hd segment shown).accepts_iff tier ne single,
    Glob.accepts_below_iff hd.plain.isSegment segment, Path.splitOn_joinSteps ne single,
    exists_ends_iff, takesAll_name_iff, leadBelow_iff, and_assoc]

/-- Markdown files below a directory. -/
theorem Tier.accepts_below_markdown {dir : String} (hd : IsShownName dir.toList) :
    tier.accepts (filesBelow dir anyMarkdown) (Path.joinSteps names) =
      (leadToDocument names && leadBelow dir names) := by
  have last := last_single ne single
  rw [Bool.eq_iff_iff, Tier.accepts_below_iff tier ne single hd isSegment_anyMarkdown rfl,
    takesAll_anyMarkdown_iff last, Bool.and_eq_true, leadToDocument_iff, and_assoc]
  exact and_congr_right fun _ => and_comm

/-- Files of one name below a directory. -/
theorem Tier.accepts_below_name {dir file : String} (hd : IsShownName dir.toList)
    (hf : IsShownName file.toList) (markdown : isMarkdown file.toList = true) :
    tier.accepts (filesBelow dir file.toList) (Path.joinSteps names) =
      (leadToDocument names && (leadBelow dir names && isCalled file (names.getLastD []))) := by
  rw [Bool.eq_iff_iff, Tier.accepts_below_iff tier ne single hd hf.plain.isSegment hf.shown,
    takesAll_name_iff, ← isCalled_iff, Bool.and_eq_true, Bool.and_eq_true, leadToDocument_iff]
  constructor
  · rintro ⟨visible, below, called⟩
    exact ⟨⟨visible, isMarkdown_of_isCalled markdown called⟩, below, called⟩
  · rintro ⟨⟨visible, -⟩, below, called⟩
    exact ⟨visible, below, called⟩

/-- A file of one name that is in no directory. -/
theorem Tier.accepts_alone {file : String} (hf : IsShownName file.toList)
    (markdown : isMarkdown file.toList = true) :
    tier.accepts file.toList (Path.joinSteps names) =
      (leadToDocument names && areAlone file names) := by
  rw [Bool.eq_iff_iff, (shows_alone hf).accepts_iff tier ne single,
    accepts_alone_iff hf.plain.isSegment, Path.splitOn_joinSteps ne single, Bool.and_eq_true,
    leadToDocument_iff, areAlone_iff]
  simp only [takesAll_name_iff]
  constructor
  · rintro ⟨visible, n, rfl, called⟩
    exact ⟨⟨visible, isMarkdown_of_isCalled markdown (isCalled_iff.2 called)⟩, n, rfl, called⟩
  · rintro ⟨⟨visible, -⟩, alone⟩
    exact ⟨visible, alone⟩

end Accepts

/-! ## The standard patterns -/

namespace TierPatterns

theorem standard_strict :
    standard.ofTier .strict =
      [filesBelow "commands" anyMarkdown, filesBelow "skills" "SKILL.md".toList,
        filesBelow "agents" "AGENT.md".toList, filesBelow "rules" anyMarkdown,
        "AGENTS.md".toList, "CLAUDE.md".toList] := by
  decide

theorem standard_moderate :
    standard.ofTier .moderate =
      [filesBelow "governance" anyMarkdown, filesBelow "config-sync" anyMarkdown,
        filesBelow "agent-ops" anyMarkdown] := by
  decide

theorem standard_light :
    standard.ofTier .light = [Path.joinSteps [directories, anyMarkdown]] := by
  decide

end TierPatterns

/-- All standard patterns can be read. -/
theorem exists_parse_standard (tier : Tier) :
    ∀ t ∈ TierPatterns.standard.ofTier tier, ∃ p, PathPattern.parse tier t = .ok p := by
  have markdown : ∀ {dir : String}, IsShownName dir.toList →
      ∃ p, PathPattern.parse tier (filesBelow dir anyMarkdown) = .ok p :=
    fun hd => ⟨_, (shows_below hd isSegment_anyMarkdown rfl).parse tier⟩
  have named : ∀ {dir file : String}, IsShownName dir.toList → IsShownName file.toList →
      ∃ p, PathPattern.parse tier (filesBelow dir file.toList) = .ok p :=
    fun hd hf => ⟨_, (shows_below hd hf.plain.isSegment hf.shown).parse tier⟩
  have alone : ∀ {file : String}, IsShownName file.toList →
      ∃ p, PathPattern.parse tier file.toList = .ok p :=
    fun hf => ⟨_, (shows_alone hf).parse tier⟩
  cases tier with
  | strict =>
    rw [TierPatterns.standard_strict]
    simp only [List.forall_mem_cons, List.not_mem_nil, false_implies, implies_true, and_true]
    exact ⟨markdown (by decide), named (by decide) (by decide), named (by decide) (by decide),
      markdown (by decide), alone (by decide), alone (by decide)⟩
  | moderate =>
    rw [TierPatterns.standard_moderate]
    simp only [List.forall_mem_cons, List.not_mem_nil, false_implies, implies_true, and_true]
    exact ⟨markdown (by decide), markdown (by decide), markdown (by decide)⟩
  | light =>
    rw [TierPatterns.standard_light, List.forall_mem_singleton]
    exact ⟨_, shows_anywhere.parse .light⟩
  | none => simp [TierPatterns.ofTier]

/-- The first tier with a standard pattern that accepts the path of these names. -/
theorem first_standard {names : List Text} (ne : names ≠ []) (single : ∀ n ∈ names, '/' ∉ n) :
    Tier.first (fun tier =>
      (TierPatterns.standard.ofTier tier).any (tier.accepts · (Path.joinSteps names))) =
      standardTier names := by
  have strict : (TierPatterns.standard.ofTier .strict).any
      (Tier.strict.accepts · (Path.joinSteps names)) =
        (leadToDocument names && (leadBelow "commands" names || leadBelow "rules" names
          || leadBelow "skills" names && isCalled "SKILL.md" (names.getLastD [])
          || leadBelow "agents" names && isCalled "AGENT.md" (names.getLastD [])
          || areAlone "AGENTS.md" names || areAlone "CLAUDE.md" names)) := by
    rw [TierPatterns.standard_strict]
    simp (disch := decide) only [List.any_cons, List.any_nil,
      Tier.accepts_below_markdown .strict ne single, Tier.accepts_below_name .strict ne single,
      Tier.accepts_alone .strict ne single]
    cases leadToDocument names with
    | false => rfl
    | true => grind
  have moderate : (TierPatterns.standard.ofTier .moderate).any
      (Tier.moderate.accepts · (Path.joinSteps names)) =
        (leadToDocument names && (leadBelow "governance" names || leadBelow "config-sync" names
          || leadBelow "agent-ops" names)) := by
    rw [TierPatterns.standard_moderate]
    simp (disch := decide) only [List.any_cons, List.any_nil,
      Tier.accepts_below_markdown .moderate ne single]
    cases leadToDocument names with
    | false => rfl
    | true => grind
  have light : (TierPatterns.standard.ofTier .light).any
      (Tier.light.accepts · (Path.joinSteps names)) = leadToDocument names := by
    rw [TierPatterns.standard_light, List.any_cons, List.any_nil, Bool.or_false,
      Tier.accepts_anywhere .light ne single]
  rw [Tier.first_eq, strict, moderate, light, standardTier]
  cases leadToDocument names <;> rfl

/-! ## Classification -/

/-- Patterns see the names of a relative path without backslashes. -/
theorem seenFrom_of_relative (root : Text) {p : Text} (relative : Path.isAbsolute p = false)
    (inside : (ofText p).ups = 0) (ne : (ofText p).names ≠ []) (plain : '\\' ∉ p) :
    seenFrom root p = some (Path.joinSteps (ofText p).names) := by
  have seen : (ofText p).absolute = false := by rw [absolute_ofText, relative]
  rw [seenFrom, below?_of_relative _ seen, if_pos ⟨inside, ne⟩]
  -- there is no backslash that separates segments
  have same : ∀ n ∈ (ofText p).names, n.map (fun c => if c == '\\' then '/' else c) = n := by
    intro n hn
    have others : ∀ c ∈ n, (if c == '\\' then '/' else c) = c := by
      intro c hc
      rw [if_neg]
      rw [beq_iff_eq]
      rintro rfl
      exact plain (Text.mem_of_mem_splitOn (mem_splitOn_of_mem_names hn) hc)
    rw [List.map_congr_left others, List.map_id']
  show some (List.map _ _) = _
  rw [← Path.joinSteps_map rfl, List.map_congr_left same, List.map_id']

namespace Classifier

/-- **The standard tiers.** A classifier can be built of the standard patterns. Whatever its root
is, it gives a relative path without backslashes the tier that the names of its normal form stand
for; relative paths that come back to where they are seen from or leave it have no tier, and
neither have absolute paths that do not lie below an absolute root. -/
theorem classify_standard (root : Text) :
    ∃ c, build root .standard = .ok c ∧
      (∀ p, Path.isAbsolute p = false → '\\' ∉ p →
        ['.', '.'] ∉ Path.steps (Path.normalized p) → Path.normalized p ≠ [] →
        c.classify p = standardTier (Path.steps (Path.normalized p))) ∧
      (∀ p, Path.isAbsolute p = false →
        (Path.normalized p = [] ∨ ['.', '.'] ∈ Path.steps (Path.normalized p)) →
        c.classify p = .none) ∧
      (∀ p, Path.isAbsolute root = true → Path.isAbsolute p = true → ¬ Path.LiesBelow root p →
        c.classify p = .none) := by
  obtain ⟨c, built⟩ : ∃ c, build root .standard = .ok c := exists_build_iff.2 exists_parse_standard
  refine ⟨c, built, ?_, ?_, ?_⟩
  · intro p relative plain noUp some
    have inside := Path.ups_eq_zero relative noUp
    have ne : (ofText p).names ≠ [] := by
      intro none
      exact some (Path.normalized_eq_nil relative inside none)
    have single : ∀ n ∈ (ofText p).names, '/' ∉ n := by
      intro n hn
      exact ((reduced_ofText p).names n hn).slash
    rw [classify_eq_first built, seenFrom_of_relative root relative inside ne plain,
      Path.steps_eq_names relative inside ne]
    exact first_standard ne single
  · intro p relative leaves
    exact classify_eq_none_of_leaves built relative leaves
  · intro p absolute hp outside
    exact classify_eq_none_of_outside built absolute hp outside

/-- A skill in another case and behind a detour, a file whose name is special only outside of
directories, a file that is hidden by its own name, and a path beside the repository. -/
theorem classify_standard_of_repo :
    ∃ c, build "/repo".toList .standard = .ok c ∧
      c.classify "skills/a/../b/Skill.MD".toList = .strict ∧
      c.classify "docs/CLAUDE.md".toList = .light ∧
      c.classify "commands/.md".toList = .none ∧
      c.classify "../repo/AGENTS.md".toList = .none := by
  obtain ⟨c, built, named, leaving, -⟩ := classify_standard "/repo".toList
  refine ⟨c, built, ?_, ?_, ?_, ?_⟩
  · rw [named _ (by decide) (by decide) (by decide) (by decide)]
    decide
  · rw [named _ (by decide) (by decide) (by decide) (by decide)]
    decide
  · rw [named _ (by decide) (by decide) (by decide) (by decide)]
    decide
  · exact leaving _ (by decide) (.inr (by decide))

end Classifier

end TierLint
