import TierLint.Proofs.Glob.Case
import TierLint.Proofs.Outcome
import TierLint.Proofs.Path.Lexical
import TierLint.Tier.Classifier

/-!
# Classification does not see the case of letters

Folding the case of a path commutes with all that is done to it: it means the folded names
(`ofText_foldCase`), patterns see the folded text (`relative?_foldCase`), and its hidden segments
are folded (`hiddenSegments_foldCase`). Since globs match a text exactly if they match the folded
one, a relative path has the tier of the folded path, and paths that differ only in the case of
ASCII letters have the same tier (`classify_eq_of_foldCase_eq`). The names of the root are compared
letter by letter, so this does not hold of absolute paths.
-/

set_option autoImplicit false

namespace TierLint

open LexicalPath

theorem isNoLetter_slash : IsNoLetter '/' := .inl (by decide)

theorem isNoLetter_period : IsNoLetter '.' := .inl (by decide)

theorem isNoLetter_backslash : IsNoLetter '\\' := .inr (.inl ⟨by decide, by decide⟩)

/-! ## Paths -/

namespace LexicalPath

/-- The path with the case of its names folded. -/
def foldCase (p : LexicalPath) : LexicalPath := { p with names := p.names.map Text.foldCase }

theorem step_foldCase (p : LexicalPath) (s : Text) :
    p.foldCase.step s.foldCase = (p.step s).foldCase := by
  have empty : s.foldCase.isEmpty = s.isEmpty := by
    cases s <;> rfl
  have dot : (s.foldCase == ['.']) = (s == ['.']) :=
    Text.foldCase_beq (by simp [isNoLetter_period])
  have up : (s.foldCase == ['.', '.']) = (s == ['.', '.']) :=
    Text.foldCase_beq (by simp [isNoLetter_period])
  have names : p.foldCase.names.isEmpty = p.names.isEmpty := List.isEmpty_map
  have absolute : p.foldCase.absolute = p.absolute := rfl
  rw [step, step, empty, dot, up, names, absolute]
  split
  · rfl
  · split
    · split
      · simp [foldCase]
      · split <;> rfl
    · simp [foldCase]

theorem follow_foldCase (p : LexicalPath) (ss : List Text) :
    p.foldCase.follow (ss.map Text.foldCase) = (p.follow ss).foldCase := by
  induction ss generalizing p with
  | nil => rfl
  | cons s ss ih => rw [List.map_cons, follow_cons, follow_cons, step_foldCase, ih]

/-- A folded path means the folded names. -/
theorem ofText_foldCase (t : Text) : ofText t.foldCase = (ofText t).foldCase := by
  have start : Path.isAbsolute t.foldCase = Path.isAbsolute t :=
    Text.startsBy_foldCase isNoLetter_slash t
  rw [ofText_eq_follow, start, Text.splitOn_foldCase isNoLetter_slash, ofText_eq_follow]
  exact follow_foldCase ⟨Path.isAbsolute t, 0, []⟩ _

/-- The names of a relative path below a root are folded with it. -/
theorem below?_foldCase (root : LexicalPath) {p : LexicalPath} (relative : p.absolute = false) :
    below? root p.foldCase = (below? root p).map (·.map Text.foldCase) := by
  have folded : p.foldCase.absolute = false := relative
  rw [below?_of_relative root relative, below?_of_relative root folded]
  by_cases stays : p.ups = 0 ∧ p.names ≠ []
  · rw [if_pos stays, if_pos ⟨stays.1, fun none => stays.2 (List.map_eq_nil_iff.1 none)⟩]
    rfl
  · rw [if_neg stays, if_neg fun h => stays ⟨h.1, fun none => h.2 (List.map_eq_nil_iff.2 none)⟩]
    rfl

end LexicalPath

/-! ## Patterns -/

theorem isHidden_foldCase (s : Text) : isHidden s.foldCase = isHidden s :=
  Text.startsBy_foldCase isNoLetter_period s

theorem hiddenSegments_foldCase (t : Text) :
    hiddenSegments t.foldCase = (hiddenSegments t).map Text.foldCase := by
  rw [hiddenSegments, hiddenSegments, Text.splitOn_foldCase isNoLetter_slash, List.filter_map]
  congr 1
  apply List.filter_congr
  intro s _
  exact isHidden_foldCase s

/-- Hidden segments included, a pattern matches a path in either case. -/
theorem PathPattern.accepts_foldCase (p : PathPattern) (path : Text) :
    p.accepts path.foldCase = p.accepts path := by
  rw [accepts, accepts, Glob.accepts_foldCase, hiddenSegments_foldCase, List.all_map]
  congr 2
  funext segment
  show p.hidden.any (·.accepts segment.foldCase) = p.hidden.any (·.accepts segment)
  simp only [Glob.accepts_foldCase]

/-! ## Classification -/

namespace Classifier

/-- Patterns see the folded path. -/
theorem relative?_foldCase (c : Classifier) {p : Text} (relative : Path.isAbsolute p = false) :
    c.relative? p.foldCase = (c.relative? p).map Text.foldCase := by
  have plain : (ofText p).absolute = false := by rw [absolute_ofText, relative]
  rw [relative?, relative?, ofText_foldCase, below?_foldCase _ plain, Option.map_map,
    Option.map_map]
  congr 1
  funext names
  show (Path.joinSteps (names.map (List.map Char.toLower))).map _ = Text.foldCase (List.map _ _)
  rw [Path.joinSteps_map rfl, Text.foldCase, List.map_map, List.map_map]
  congr 1
  funext ch
  -- backslashes have no case, and the slashes in their place have none
  have backslash : (ch.toLower == '\\') = (ch == '\\') := toLower_beq isNoLetter_backslash
  show (if ch.toLower == '\\' then '/' else ch.toLower) = (if ch == '\\' then '/' else ch).toLower
  rw [backslash]
  split <;> rfl

theorem tierOf_foldCase (c : Classifier) (relative : Text) :
    c.tierOf relative.foldCase = c.tierOf relative := by
  rw [tierOf, tierOf]
  simp only [PathPattern.accepts_foldCase]

theorem classify_foldCase (c : Classifier) {p : Text} (relative : Path.isAbsolute p = false) :
    c.classify p.foldCase = c.classify p := by
  rw [classify, classify, relative?_foldCase c relative]
  cases c.relative? p with
  | none => rfl
  | some r => exact tierOf_foldCase c r

/-- **Case of letters.** Whatever its patterns and its root are, a classifier gives two relative
paths the same tier if they differ only in the case of ASCII letters. -/
theorem classify_eq_of_foldCase_eq (c : Classifier) {p q : Text}
    (relative : Path.isAbsolute p = false) (same : p.foldCase = q.foldCase) :
    c.classify p = c.classify q := by
  have relative' : Path.isAbsolute q = false := by
    rw [Path.isAbsolute, ← Text.startsBy_foldCase isNoLetter_slash, ← same,
      Text.startsBy_foldCase isNoLetter_slash]
    exact relative
  calc c.classify p = c.classify p.foldCase := (classify_foldCase c relative).symm
    _ = c.classify q.foldCase := by rw [same]
    _ = c.classify q := classify_foldCase c relative'

/-- A negated class, alternatives and a hidden segment, each met in the other case. -/
theorem classify_eq_of_foldCase_eq_of_hidden :
    ∃ c, build "/repo".toList ⟨["[!a-c]/\x7bRu,x\x7d/.G*".toList], [], []⟩ = .ok c ∧
      c.classify "D/rU/.gI".toList = .strict ∧
      Path.isAbsolute "D/rU/.gI".toList = false ∧
      Text.foldCase "D/rU/.gI".toList = Text.foldCase "d/Ru/.Gi".toList ∧
      c.classify "D/rU/.gI".toList = c.classify "d/Ru/.Gi".toList := by
  have ok : (build "/repo".toList ⟨["[!a-c]/\x7bRu,x\x7d/.G*".toList], [], []⟩).isOk = true := by
    decide +kernel
  obtain ⟨c, built⟩ := exists_of_isOk ok
  have taken : (build "/repo".toList ⟨["[!a-c]/\x7bRu,x\x7d/.G*".toList], [], []⟩).toOption.map
      (·.classify "D/rU/.gI".toList) = some .strict := by decide +kernel
  rw [built] at taken
  have relative : Path.isAbsolute "D/rU/.gI".toList = false := by decide
  have same : Text.foldCase "D/rU/.gI".toList = Text.foldCase "d/Ru/.Gi".toList := by decide
  refine ⟨c, built, Option.some.inj taken, relative, same, ?_⟩
  exact classify_eq_of_foldCase_eq c relative same

end Classifier

end TierLint
