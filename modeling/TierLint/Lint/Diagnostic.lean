import TierLint.Lint.Position
import TierLint.Tier.Basic

/-!
# Diagnostics

What rules report: the name of the rule, how severe the finding is, what is
wrong, and where. Findings about a document as a whole have no location.
-/

set_option autoImplicit false

namespace TierLint

/-- How severe a finding is. -/
inductive Severity where
  /-- The document breaks a rule. -/
  | error
  /-- The document could be better. -/
  | warning
  deriving DecidableEq

/-- The name of a severity. -/
def Severity.name : Severity → String
  | .error => "error"
  | .warning => "warning"

/-- Findings in strict documents are errors, all others are warnings. -/
def Tier.severity : Tier → Severity
  | .strict => .error
  | _ => .warning

/-- A finding before it is assigned to a rule: where, if anywhere, and what. -/
structure Finding where
  location? : Option Location
  message : Text

/-- A finding of a rule. -/
structure Diagnostic where
  code : String
  severity : Severity
  location? : Option Location
  message : Text

end TierLint
