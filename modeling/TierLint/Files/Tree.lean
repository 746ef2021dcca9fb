import TierLint.Files.Entry
import TierLint.Path

/-!
# File trees

A tree of files held in memory. A path is followed step by step: every step
leads on from a directory that exists, also a `.` or `..` step and the empty
step behind a slash at the end.
-/

set_option autoImplicit false

namespace TierLint

/-- Files and directories by the names that lead to them from the root. The directories above
them exist too. -/
structure FileTree where
  files : List (List Text × Entry)
  directories : List (List Text)

namespace FileTree

/-- There is a directory with the given names. -/
def isDirectory (tree : FileTree) (names : List Text) : Bool :=
  names.isEmpty || tree.directories.any names.isPrefixOf
    || tree.files.any fun (file, _) => names.isPrefixOf file

/-- The entry with the given names. -/
def entry (tree : FileTree) (names : List Text) : Entry :=
  match tree.files.lookup names with
  | some e => e
  | none => if tree.isDirectory names then .directory else .missing

/-- Follows steps from the entry with the names `here`. -/
def follow (tree : FileTree) (here : List Text) : List Text → Entry
  | [] => tree.entry here
  | s :: steps =>
    match tree.entry here with
    | .directory =>
      if s.isEmpty || s == ['.'] then follow tree here steps
      else if s == ['.', '.'] then follow tree here.dropLast steps
      else follow tree (here ++ [s]) steps
    | .missing => .missing
    | _ => .blocked

/-- What paths lead to, seen from the working directory. The empty path leads nowhere. -/
def view (tree : FileTree) (workingDirectory : List Text) : Files := fun path =>
  if path.isEmpty then .missing
  else tree.follow (if Path.isAbsolute path then [] else workingDirectory) (Path.steps path)

end FileTree

end TierLint
