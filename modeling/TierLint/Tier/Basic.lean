import TierLint.Text

/-!
# Tiers

Every document belongs to one tier, which decides by which rules it is checked.
Strict documents are directives, moderate ones governance documents, light ones
all other documents; documents of tier none are not checked.
-/

set_option autoImplicit false

namespace TierLint

/-- The compliance tier of a document. Stricter tiers come first. -/
inductive Tier where
  /-- Directives: structure and voice are checked in full. -/
  | strict
  /-- Governance documents: advice only. -/
  | moderate
  /-- Other documents: advice on extreme cases. -/
  | light
  /-- Not checked. -/
  | none
  deriving DecidableEq, Ord

/-- The name of a tier. -/
def Tier.name : Tier → String
  | .strict => "strict"
  | .moderate => "moderate"
  | .light => "light"
  | .none => "none"

/-- Lists of patterns for each tier that documents are assigned to by pattern. -/
structure TierPatterns where
  strict : List Text
  moderate : List Text
  light : List Text

/-- The patterns used where none are configured. -/
def TierPatterns.standard : TierPatterns where
  strict := ["commands/**/*.md", "skills/**/SKILL.md", "agents/**/AGENT.md", "rules/**/*.md",
    "AGENTS.md", "CLAUDE.md"].map String.toList
  moderate := ["governance/**/*.md", "config-sync/**/*.md", "agent-ops/**/*.md"].map String.toList
  light := ["**/*.md"].map String.toList

end TierLint
