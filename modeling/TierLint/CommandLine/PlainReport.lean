import TierLint.CommandLine.Report

/-!
# Reports for people

A line for each finding, with the severity in color, and for each file without
findings; behind them the summary, unless nothing was found. Files that could
not be read are reported apart.
-/

set_option autoImplicit false

namespace TierLint.CommandLine

/-- A number in decimal. -/
def decimal (n : Nat) : Text := Nat.toDigits 10 n

/-- A text with a line break behind it. -/
def lineOf (t : Text) : Text := t ++ ['\n']

/-- A text with spaces behind it, up to a width of 20. -/
def padded (t : Text) : Text := t ++ List.replicate (20 - t.length) ' '

/-- A severity in its color on terminals. -/
def coloredSeverity : Severity → Text
  | .error => "\x1b[31merror\x1b[0m".toList
  | .warning => "\x1b[33mwarning\x1b[0m".toList

/-- The place of a finding in a file. -/
def placeOf (path : Text) : Option Location → Text
  | some l => path ++ ':' :: decimal l.position.line ++ ':' :: decimal l.position.column
  | none => path

/-- The line for a finding. -/
def findingLine (path : Text) (d : Diagnostic) : Text :=
  lineOf (coloredSeverity d.severity ++ '[' :: d.code.toList ++ "]: ".toList ++ d.message
    ++ " at ".toList ++ placeOf path d.location?)

/-- The message about a failure. -/
def failureLine (f : Failure) : Text := lineOf ("Error: ".toList ++ f.message)

/-- The lines for a file; a quiet report does not mention files without findings. -/
def Report.plainLines (quiet : Bool) (r : Report) : Text :=
  match r.result with
  | .ok (tier, []) =>
    if quiet then []
    else lineOf (r.path ++ ": no issues found (".toList ++ tier.name.toList ++ [')'])
  | .ok (_, diagnostics) => diagnostics.flatMap (findingLine r.path)
  | .error _ => []

/-- The message about a file that could not be read. -/
def Report.failureLines (r : Report) : Text :=
  match r.result with
  | .ok _ => []
  | .error f => failureLine f

/-- The line for a number of findings. -/
def countLine (name : Text) (n : Nat) : Text :=
  lineOf ("  ".toList ++ padded name ++ ' ' :: decimal n)

/-- The lines of a summary; none if nothing was found. The rules come in the order in which
they are run. -/
def Summary.plainLines (rules : List Rule) (s : Summary) : Text :=
  if s.total = 0 then []
  else
    lineOf ("\nFound ".toList ++ decimal s.total ++ " issue(s): ".toList ++ decimal s.errors
        ++ " error(s), ".toList ++ decimal s.warnings ++ " warning(s)".toList)
      ++ rules.flatMap (fun rule =>
          match s.byRule.lookup rule.name with
          | some n => countLine rule.name.toList n
          | none => [])
      ++ s.byTier.flatMap (fun (tier, n) => countLine ('[' :: tier.name.toList ++ [']']) n)

/-- The report on all files and the summary. -/
def plainReport (rules : List Rule) (quiet : Bool) (reports : List Report) (s : Summary) : Text :=
  reports.flatMap (·.plainLines quiet) ++ s.plainLines rules

end TierLint.CommandLine
