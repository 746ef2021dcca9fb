import TierLint.CommandLine.Run

/-!
# The program

Reads the command line, the environment and the files that the request may
need, answers the request, and prints the outcome. Everything is decided in
`CommandLine.World.run`; by `CommandLine.World.run_congr` the files read here are
enough for it.
-/

set_option autoImplicit false

namespace TierLint.CommandLine

/-- What a path leads to. -/
def entryAt (path : Text) : IO Entry := do
  try
    return Entry.ofBytes (← IO.FS.readBinFile (String.ofList path))
  catch
    | .inappropriateType _ 21 _ => return .directory
    | .inappropriateType _ _ _ => return .blocked
    | .permissionDenied _ _ _ => return .denied
    | _ => return .missing

/-- The entries that some paths lead to now. -/
def entriesAt (paths : List Text) : IO Files := do
  let entries ← paths.mapM fun path => do return (path, ← entryAt path)
  return fun path => (entries.lookup path).getD .missing

/-- The value of an environment variable. -/
def environmentValue (name : String) : IO (Option Text) := do
  return (← IO.getEnv name).map String.toList

/-- The environment of the program. -/
def currentEnvironment : IO Environment := do
  return ⟨← environmentValue "XDG_CONFIG_HOME", ← environmentValue "HOME",
    ← environmentValue "STRICTURE_ROOT"⟩

/-- Answers the request of a command line and prints the outcome. -/
def program (arguments : List String) : IO UInt32 := do
  let env ← currentEnvironment
  let workingDirectory := (← IO.currentDir).toString.toList
  match Request.ofArguments? env (arguments.map String.toList) with
  | none =>
    IO.eprintln "usage: stricture [--config FILE] (lint | classify | parse | rules) ..."
    return 2
  | some request =>
    let files ← entriesAt (request.filesToRead env workingDirectory)
    match (World.mk files env workingDirectory).run request with
    | .ok outcome =>
      IO.print (String.ofList outcome.stdout)
      IO.eprint (String.ofList outcome.stderr)
      return outcome.status.toUInt32
    | .error .markerSplitsCharacter =>
      IO.eprintln "the marker of a heading splits a character"
      return 101

end TierLint.CommandLine

/-- The program. -/
def main (arguments : List String) : IO UInt32 := TierLint.CommandLine.program arguments
