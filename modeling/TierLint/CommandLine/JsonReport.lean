import TierLint.CommandLine.Report
import TierLint.Json

/-!
# Reports for programs

All reports and the summary as one value of JSON. Rules are listed by name, tiers
from strict to light.
-/

set_option autoImplicit false

namespace TierLint.CommandLine

open JsonValue

/-- A name or other fixed text. -/
def jsonName (s : String) : JsonValue := string s.toList

/-- A finding. -/
def jsonFinding (d : Diagnostic) : JsonValue :=
  let part (f : Position → Nat) : JsonValue :=
    match d.location? with
    | some l => number (f l.position)
    | none => null
  object
    [("code", jsonName d.code), ("severity", jsonName d.severity.name),
     ("message", string d.message), ("line", part Position.line), ("column", part Position.column)]

/-- The report on a file. -/
def Report.toJson (r : Report) : JsonValue :=
  match r.result with
  | .ok (tier, diagnostics) =>
    object
      [("path", string r.path), ("tier", jsonName tier.name),
       ("diagnostics", array (diagnostics.map jsonFinding))]
  | .error f =>
    object [("path", string r.path), ("error", string f.message), ("diagnostics", array [])]

/-- The summary. -/
def Summary.toJson (s : Summary) : JsonValue :=
  object
    [("errors", number s.errors), ("warnings", number s.warnings),
     ("unreadable", number s.unreadable),
     ("by_rule", object (s.byRule.map fun (name, n) => (name, number n))),
     ("by_tier", object (s.byTier.map fun (tier, n) => (tier.name, number n)))]

/-- The report on all files and the summary. -/
def jsonReport (reports : List Report) (s : Summary) : Text :=
  pretty 0 (object [("files", array (reports.map Report.toJson)), ("summary", s.toJson)]) ++ ['\n']

end TierLint.CommandLine
