import TierLint.Failure
import TierLint.Lint.Linter

/-!
# Reports

What linting files gave: a report on each file, in the order of the files, and a
summary that counts the findings of all readable files, one after the other, by
what each finding brings: its severity, its code and the tier of its file. Files
of tier none are read but not parsed. The exit status depends on the summary alone.
-/

set_option autoImplicit false

namespace TierLint.CommandLine

/-- What linting a file gave: its tier and the findings, or why it could not be read. -/
structure Report where
  path : Text
  result : Except Failure (Tier × List Diagnostic)

/-- The report on a file whose path is seen from the working directory. -/
def Report.ofPath (files : Files) (linter : Linter) (workingDirectory path : Text) :
    Except ParseError Report :=
  let absolute := Path.join workingDirectory path
  let tier := linter.classify absolute
  match (files path).read with
  | .error reason => .ok ⟨path, .error (.unreadable path reason)⟩
  | .ok t =>
    if tier = .none then .ok ⟨path, .ok (tier, [])⟩
    else do
      let diagnostics ← linter.lint absolute t
      .ok ⟨path, .ok (tier, diagnostics)⟩

/-- How often keys were met, in the order of the keys; only those that were met are there. -/
abbrev Tally (α : Type) := List (α × Nat)

/-- A key is met once more. -/
def Tally.add {α : Type} [Ord α] (key : α) : Tally α → Tally α
  | [] => [(key, 1)]
  | (key', n) :: rest =>
    match compare key key' with
    | .lt => (key, 1) :: (key', n) :: rest
    | .eq => (key', n + 1) :: rest
    | .gt => (key', n) :: Tally.add key rest

/-- Counts of findings and of files that could not be read. -/
structure Summary where
  errors : Nat
  warnings : Nat
  unreadable : Nat
  /-- By the codes of the findings. -/
  byRule : Tally String
  byTier : Tally Tier

namespace Summary

/-- The summary of no reports. -/
def empty : Summary := ⟨0, 0, 0, [], []⟩

/-- Counts a finding in a file of a tier. -/
def addFinding (tier : Tier) (s : Summary) (d : Diagnostic) : Summary :=
  let counted := { s with byRule := s.byRule.add d.code, byTier := s.byTier.add tier }
  match d.severity with
  | .error => { counted with errors := s.errors + 1 }
  | .warning => { counted with warnings := s.warnings + 1 }

/-- Counts the findings of a report, or the file that could not be read. -/
def addReport (s : Summary) (r : Report) : Summary :=
  match r.result with
  | .ok (tier, diagnostics) => diagnostics.foldl (addFinding tier) s
  | .error _ => { s with unreadable := s.unreadable + 1 }

/-- The summary of some reports. -/
def ofReports (reports : List Report) : Summary := reports.foldl addReport empty

/-- Number of findings. -/
def total (s : Summary) : Nat := s.errors + s.warnings

/-- The exit status: two if a file could not be read, otherwise one if there is an error, or a
warning where warnings count. -/
def status (s : Summary) (strictWarnings : Bool) : Nat :=
  if 0 < s.unreadable then 2
  else if 0 < s.errors || (strictWarnings && 0 < s.warnings) then 1
  else 0

end Summary

end TierLint.CommandLine
