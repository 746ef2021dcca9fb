import TierLint.Text

/-!
# Files

What a path leads to, and what comes of reading it as text. All that the program
knows of files is a function from paths to entries.
-/

set_option autoImplicit false

namespace TierLint

/-- What a path leads to. -/
inductive Entry where
  /-- There is nothing. -/
  | missing
  /-- A step of the path leads on from something that is no directory. -/
  | blocked
  /-- A directory. -/
  | directory
  /-- A file with its text, unless its bytes are no text in UTF-8. -/
  | file (text? : Option Text)
  /-- A file that must not be read. -/
  | denied

/-- Files as paths lead to them. -/
abbrev Files := Text → Entry

/-- Why something cannot be read as text. -/
inductive ReadError where
  | missing
  | blocked
  | directory
  | notText
  | denied
  deriving DecidableEq

/-- The wording of an error. -/
def ReadError.message : ReadError → Text
  | .missing => "No such file or directory (os error 2)".toList
  | .blocked => "Not a directory (os error 20)".toList
  | .directory => "Is a directory (os error 21)".toList
  | .notText => "stream did not contain valid UTF-8".toList
  | .denied => "Permission denied (os error 13)".toList

namespace Entry

/-- The entry is a file. -/
def isFile : Entry → Bool
  | file _ | denied => true
  | _ => false

/-- The text of a file. -/
def read : Entry → Except ReadError Text
  | file (some t) => .ok t
  | file none => .error .notText
  | denied => .error .denied
  | directory => .error .directory
  | blocked => .error .blocked
  | missing => .error .missing

/-- The file with the given bytes. -/
def ofBytes (bytes : ByteArray) : Entry := file ((String.fromUTF8? bytes).map String.toList)

end Entry

end TierLint
