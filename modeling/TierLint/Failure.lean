import TierLint.Files.Entry
import TierLint.Tier.Classifier

/-!
# Failures

What can go wrong before and while documents are checked: a file cannot be read,
a settings file is not valid, or a pattern of the settings is no glob.
-/

set_option autoImplicit false

namespace TierLint

/-- Something that went wrong. -/
inductive Failure where
  /-- The file cannot be read as text. -/
  | unreadable (path : Text) (reason : ReadError)
  /-- The text of the file is no settings. -/
  | invalidSettings (path : Text)
  /-- A pattern is no glob. -/
  | invalidPattern (e : PatternError)

/-- The wording of a failure. -/
def Failure.message : Failure → Text
  | .unreadable path reason => "failed to read ".toList ++ path ++ ": ".toList ++ reason.message
  | .invalidSettings path => "invalid config ".toList ++ path
  | .invalidPattern e => e.message

end TierLint
