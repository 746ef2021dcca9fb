import TierLint.CommandLine.Argument
import TierLint.Settings.Discovery

/-!
# Requests

What a command line asks for. The first operand names a command, with arguments
of its own behind it; the settings file may be named before it or behind it, and
behind it counts more. A command line that asks for nothing known is refused.
-/

set_option autoImplicit false

namespace TierLint.CommandLine

/-- The form of a report. -/
inductive Format where
  | human
  | json
  deriving DecidableEq

/-- The format with the given name. -/
def Format.ofName? (name : Text) : Option Format :=
  if name == "human".toList then some .human
  else if name == "json".toList then some .json
  else none

/-- How files are linted. -/
structure LintOptions where
  strictWarnings : Bool
  format : Format
  quiet : Bool

/-- Where settings and the root come from, as far as the command line says so. -/
structure Setup where
  config? : Option Text
  root? : Option Text

/-- A request. -/
inductive Request where
  /-- The version of the program. -/
  | version
  /-- Findings in files. -/
  | lint (setup : Setup) (options : LintOptions) (paths : List Text)
  /-- The tiers of files. -/
  | classify (setup : Setup) (paths : List Text)
  /-- The syntax tree of a file. -/
  | parse (path : Text)
  /-- The rules there are. -/
  | rules

namespace Request

/-- A path that is given must not be empty. -/
def path? (t : Text) : Option Text := if t.isEmpty then none else some t

/-- The paths of the files that a command works on; there is at least one. -/
def paths? (a : Arguments) : Option (List Text) :=
  if a.operands.isEmpty then none else a.operands.mapM path?

/-- Where the settings come from: the command's own option, or the one in front of it. -/
def config? (before? : Option Text) (a : Arguments) : Option (Option Text) :=
  match a.options.lookup .config with
  | some path => (path? path).map some
  | none => some before?

/-- Where settings and the root come from. -/
def setup? (env : Environment) (before? : Option Text) (a : Arguments) : Option Setup := do
  let config? ← config? before? a
  let root? ← ((a.options.lookup .root).or env.root?).mapM path?
  some { config?, root? }

/-- The options of linting. -/
def lintOptions? (a : Arguments) : Option LintOptions := do
  let format ← Format.ofName? ((a.options.lookup .format).getD "human".toList)
  some { strictWarnings := a.has .strictWarnings, format, quiet := a.has .quiet }

/-- The request that a command with its arguments makes, behind an option that names a settings
file or not. -/
def ofCommand? (env : Environment) (before? : Option Text) (name : Text) (arguments : List Text) :
    Option Request := do
  let read (allowed : List Opt) : Option Arguments :=
    (Arguments.read? allowed arguments).filter Arguments.isUnambiguous
  if name == "lint".toList then
    let a ← read [.config, .root, .strictWarnings, .format, .quiet]
    some (.lint (← setup? env before? a) (← lintOptions? a) (← paths? a))
  else if name == "classify".toList then
    let a ← read [.config, .root]
    some (.classify (← setup? env before? a) (← paths? a))
  else if name == "parse".toList then
    let a ← read [.config]
    let _ ← config? before? a
    match ← paths? a with
    | [path] => some (.parse path)
    | _ => none
  else if name == "rules".toList then
    let a ← read [.config]
    let _ ← config? before? a
    if a.operands.isEmpty then some .rules else none
  else none

/-- The request behind options in front of the command, of which one may have named a settings
file. -/
def ofArgumentsBehind? (env : Environment) (before? : Option Text) : List Text → Option Request
  | [] => none
  | t :: rest =>
    match Argument.ofText t with
    | .separator => none
    | .operand => ofCommand? env before? t rest
    | .short letters => if letters.head? = some 'V' then some .version else none
    | .long name value? =>
      if name == "version".toList then
        if value?.isNone then some .version else none
      else if name == Opt.config.name && before?.isNone then
        match value? with
        | some value => do ofArgumentsBehind? env (some (← path? value)) rest
        | none =>
          match rest with
          | [] => none
          | value :: rest =>
            -- a value that looks like an option is taken only behind an equals sign
            if Argument.ofText value = .operand then do
              ofArgumentsBehind? env (some (← path? value)) rest
            else none
      else none

/-- The request of a command line. -/
def ofArguments? (env : Environment) (arguments : List Text) : Option Request :=
  ofArgumentsBehind? env none arguments

end Request

end TierLint.CommandLine
