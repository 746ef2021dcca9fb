import TierLint.Glob.Match
import TierLint.Glob.Parse
import TierLint.Path
import TierLint.Text.Quoted
import TierLint.Tier.Basic

/-!
# Classification by path

A classifier holds the patterns of each tier and the root that paths are seen
from. The first tier with a matching pattern wins, in the order strict,
moderate, light. As with shell patterns, wildcards never reach a segment that
begins with a period: each such segment of the path needs a segment of the same
pattern that begins with a period and matches it.

A classifier is built only if all its patterns are globs; the first one that is
none is reported. Patterns have no limit of size here: that globs, each of them
valid, may be too large to be compiled together for a tier is not modelled.
-/

set_option autoImplicit false

namespace TierLint

/-- A pattern of a tier, and its own segments that begin with a period. -/
structure PathPattern where
  whole : Glob
  hidden : List Glob

/-- A pattern or pattern segment that is no glob, and the tier it belongs to. -/
structure PatternError where
  tier : Tier
  pattern : Text
  reason : Glob.Error
  deriving DecidableEq

/-- The wording of an error. -/
def PatternError.message (e : PatternError) : Text :=
  "invalid ".toList ++ e.tier.name.toList ++ " pattern ".toList ++ Text.quoted e.pattern
    ++ ": error parsing glob '".toList ++ e.pattern ++ "': ".toList ++ e.reason.message

/-- The segment begins with a period. -/
def isHidden (segment : Text) : Bool := Text.startsBy (· == '.') segment

/-- The segments of a path or pattern that begin with a period. -/
def hiddenSegments (t : Text) : List Text := (Text.splitOn '/' t).filter isHidden

namespace PathPattern

/-- The pattern matches the path. -/
def accepts (p : PathPattern) (path : Text) : Bool :=
  p.whole.accepts path
    && (hiddenSegments path).all fun segment => p.hidden.any (·.accepts segment)

/-- Reads a glob for a tier. -/
def glob (tier : Tier) (pattern : Text) : Except PatternError Glob :=
  (Glob.parse pattern).mapError fun reason => ⟨tier, pattern, reason⟩

/-- Reads a pattern for a tier. -/
def parse (tier : Tier) (pattern : Text) : Except PatternError PathPattern := do
  let whole ← glob tier pattern
  let hidden ← (hiddenSegments pattern).mapM (glob tier)
  .ok ⟨whole, hidden⟩

end PathPattern

/-- The root that documents are seen from, and the patterns of each tier. -/
structure Classifier where
  root : LexicalPath
  strict : List PathPattern
  moderate : List PathPattern
  light : List PathPattern

namespace Classifier

/-- Builds a classifier. It fails only for a pattern that is no glob; the failure to compile the
globs of a tier together, for their size, is left out. -/
def build (root : Text) (patterns : TierPatterns) : Except PatternError Classifier := do
  let strict ← patterns.strict.mapM (PathPattern.parse .strict)
  let moderate ← patterns.moderate.mapM (PathPattern.parse .moderate)
  let light ← patterns.light.mapM (PathPattern.parse .light)
  .ok ⟨LexicalPath.ofText root, strict, moderate, light⟩

/-- The path as patterns see it: its names below the root. Backslashes inside
of names separate segments there. -/
def relative? (c : Classifier) (path : Text) : Option Text :=
  (c.root.below? (LexicalPath.ofText path)).map fun names =>
    (Path.joinSteps names).map fun ch => if ch == '\\' then '/' else ch

/-- The tier of a path seen from the root. -/
def tierOf (c : Classifier) (relative : Text) : Tier :=
  if c.strict.any (·.accepts relative) then .strict
  else if c.moderate.any (·.accepts relative) then .moderate
  else if c.light.any (·.accepts relative) then .light
  else .none

/-- The tier of a path. Paths outside of the root, and the root itself, have none. -/
def classify (c : Classifier) (path : Text) : Tier :=
  match c.relative? path with
  | some relative => c.tierOf relative
  | none => .none

end Classifier

end TierLint
