import TierLint.Tier.Basic

/-!
# Settings

What a project can configure: the root that documents are seen from, the line
length limit, the patterns of the tiers, the vocabulary, and the thresholds of
the advisory rules. `Settings.standard` is used where nothing is configured.
-/

set_option autoImplicit false

namespace TierLint

/-- Headings and words that rules look for. -/
structure Vocabulary where
  canonicalHeadings : List Text
  governanceHeadings : List Text
  directiveVerbs : List Text
  modalVerbs : List Text
  subjectiveWords : List Text
  narrativeOpeners : List Text

/-- Counts up to which the advisory rules stay silent; for missing headings, the
count up to which they speak. -/
structure Thresholds where
  moderateMaxMissingHeadings : Nat
  moderateMaxSubjective : Nat
  moderateMaxModal : Nat
  lightMaxSubjective : Nat
  lightMaxModal : Nat

/-- The settings of a project. -/
structure Settings where
  root? : Option Text
  maxLineLength : Nat
  tiers : TierPatterns
  vocabulary : Vocabulary
  thresholds : Thresholds

/-- The vocabulary used where none is configured. -/
def Vocabulary.standard : Vocabulary where
  canonicalHeadings :=
    ["scope", "absolute-prohibitions", "communication-protocol", "structural-rules",
     "language-rules", "formatting-rules", "naming-rules", "validation-rules",
     "narrative-detection", "depth-compatibility"].map String.toList
  governanceHeadings := ["purpose", "scope", "workflow", "configuration"].map String.toList
  directiveVerbs :=
    ["required", "prohibited", "optional", "allowed", "ensure", "use", "keep", "set", "write",
     "avoid", "preserve", "maintain", "follow", "apply", "define", "treat", "skip", "execute",
     "disable", "enable", "list", "include", "exclude", "respect", "align", "load", "route",
     "escalate", "run", "add", "remove", "update", "create", "delete", "validate", "check",
     "test", "build", "deploy", "configure", "implement"].map String.toList
  modalVerbs := ["may", "might", "could"].map String.toList
  subjectiveWords :=
    ["usually", "typically", "generally", "often", "maybe", "perhaps", "probably"].map
      String.toList
  narrativeOpeners :=
    ["this", "the", "that", "these", "those", "our", "we", "you", "they", "it", "a", "an"].map
      String.toList

/-- The thresholds used where none are configured. -/
def Thresholds.standard : Thresholds where
  moderateMaxMissingHeadings := 2
  moderateMaxSubjective := 2
  moderateMaxModal := 1
  lightMaxSubjective := 4
  lightMaxModal := 2

/-- The settings used where nothing is configured. -/
def Settings.standard : Settings where
  root? := none
  maxLineLength := 100
  tiers := TierPatterns.standard
  vocabulary := Vocabulary.standard
  thresholds := Thresholds.standard

end TierLint
