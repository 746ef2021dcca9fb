import TierLint.Text

/-!
# Paths

Paths are texts with slashes between their steps. Joining and going up work on
the text and keep its spelling. What a path means without looking at any file is
its `LexicalPath`: repeated slashes and `.` steps are gone, and `..` steps have
taken the name in front of them away. At the root there is nothing to take away;
in front of all names of a relative path they are kept.
-/

set_option autoImplicit false

namespace TierLint

namespace Path

/-- The path begins with a slash. -/
def isAbsolute (p : Text) : Bool := Text.startsBy (· == '/') p

/-- The path `p`, seen from the directory `base`. -/
def join (base p : Text) : Text :=
  if isAbsolute p || base.isEmpty then p
  else if Text.endsBy (· == '/') base then base ++ p
  else base ++ '/' :: p

/-- Texts with slashes between them. -/
def joinSteps (steps : List Text) : Text := ['/'].intercalate steps

/-- The steps of a path, behind the slash of an absolute one. -/
def steps (p : Text) : List Text := Text.splitOn '/' (if isAbsolute p then p.drop 1 else p)

/-- The beginnings of `rest` that end with a step that counts, with `before` in
front of them. Empty steps do not count, and `.` counts only at the very
beginning of a relative path. -/
def stepBeginnings (absolute : Bool) (before : List Text) : List Text → List (List Text)
  | [] => []
  | s :: rest =>
    let counts := !s.isEmpty && (s != ['.'] || (before.isEmpty && !absolute))
    (if counts then [before ++ [s]] else []) ++ stepBeginnings absolute (before ++ [s]) rest

/-- The path and all paths above it, one step at a time, down to the root or the
empty path. -/
def ancestors (p : Text) : List Text :=
  let root : Text := if isAbsolute p then ['/'] else []
  match (stepBeginnings (isAbsolute p) [] (steps p)).reverse with
  | [] => [p]
  | _ :: above => p :: (above ++ [[]]).map fun s => root ++ joinSteps s

/-- The path above, unless there is none. -/
def parent? (p : Text) : Option Text := (ancestors p).tail.head?

end Path

/-- A path without `.` steps and with each `..` carried out: the number of
leading `..` steps of a relative path, and names. -/
structure LexicalPath where
  absolute : Bool
  ups : Nat
  names : List Text
  deriving DecidableEq

namespace LexicalPath

/-- Goes one step on. -/
def step (p : LexicalPath) (s : Text) : LexicalPath :=
  if s.isEmpty || s == ['.'] then p
  else if s == ['.', '.'] then
    if !p.names.isEmpty then { p with names := p.names.dropLast }
    else if p.absolute then p
    else { p with ups := p.ups + 1 }
  else { p with names := p.names ++ [s] }

/-- The meaning of a path. -/
def ofText (t : Text) : LexicalPath :=
  (Text.splitOn '/' t).foldl step ⟨Path.isAbsolute t, 0, []⟩

/-- The shortest text with this meaning. -/
def toText (p : LexicalPath) : Text :=
  (if p.absolute then ['/'] else [])
    ++ Path.joinSteps (List.replicate p.ups ['.', '.'] ++ p.names)

/-- The steps of an absolute path behind `root`, if it lies there. Every path
lies behind the empty path. -/
def behind? (root p : LexicalPath) : Option (List Text) :=
  if root.absolute then
    if root.names.isPrefixOf p.names then some (p.names.drop root.names.length) else none
  else if root.ups == 0 && root.names.isEmpty then some p.names
  else none

/-- The names below `root`, if there are any: a relative path is taken as seen
from `root` and must not leave it, an absolute one must lie behind it. -/
def below? (root p : LexicalPath) : Option (List Text) :=
  let names? :=
    if p.absolute then behind? root p
    else if p.ups == 0 then some p.names
    else none
  names?.filter (!·.isEmpty)

end LexicalPath

end TierLint
