import TierLint.Text

/-!
# Glob patterns

A glob is a sequence of tokens. Single wildcards stay inside one path segment;
the three forms of `**` stand for whole directories, together with the slashes
around them.
-/

set_option autoImplicit false

namespace TierLint

namespace Glob

/-- A part of a glob. -/
inductive Token where
  /-- The character itself. -/
  | literal (c : Char)
  /-- One byte other than a slash, written `?`. -/
  | one
  /-- Any bytes other than slashes, written `*`. -/
  | many
  /-- Nothing or any directories with a slash behind them, written `**/` in front. -/
  | leadingDirs
  /-- A slash, or any directories between two slashes, written `/**/`. -/
  | innerDirs
  /-- A slash and anything behind it, written `/**` at the end. -/
  | belowDir
  /-- One byte of a class of characters, or one outside of it, written `[...]` or `[!...]`. -/
  | oneOf (negated : Bool) (ranges : List (Char × Char))
  /-- One of some sequences of tokens, written `{...,...}`. -/
  | alternatives (branches : List (List Token))

/-- Why a pattern is no glob. -/
inductive Error where
  /-- A class is not closed. -/
  | unclosedClass
  /-- The ends of a range of characters are in the wrong order. -/
  | invalidRange (first last : Char)
  /-- A group of alternatives is not closed. -/
  | unclosedAlternatives
  /-- A group of alternatives is closed that is not open. -/
  | unopenedAlternatives
  /-- The pattern ends with a backslash. -/
  | danglingEscape
  deriving DecidableEq

/-- The wording of an error. -/
def Error.message : Error → Text
  | .unclosedClass => "unclosed character class; missing ']'".toList
  | .invalidRange first last =>
    "invalid range; '".toList ++ [first] ++ "' > '".toList ++ [last] ++ "'".toList
  | .unclosedAlternatives =>
    "unclosed alternate group; missing '\x7d' (maybe escape '\x7b' with '[\x7b]'?)".toList
  | .unopenedAlternatives =>
    "unopened alternate group; missing '\x7b' (maybe escape '\x7d' with '[\x7d]'?)".toList
  | .danglingEscape => "dangling '\\'".toList

end Glob

/-- A pattern for paths. -/
structure Glob where
  tokens : List Glob.Token

end TierLint
