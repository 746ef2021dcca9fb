import TierLint.Text

/-!
# Arguments

The arguments of a command line are options and operands in any order. An option
is spelled by its name behind two hyphens, and its value, if it takes one,
follows behind an equals sign or as the next argument; a flag may also be
spelled by its letter, and letters may share a hyphen. Behind two hyphens alone
all arguments are operands. A single hyphen is an operand.
-/

set_option autoImplicit false

namespace TierLint.CommandLine

/-- The options. -/
inductive Opt where
  /-- The settings file. -/
  | config
  /-- The root that documents are seen from. -/
  | root
  /-- The form of the report. -/
  | format
  /-- Warnings count for the exit status. -/
  | strictWarnings
  /-- Files without findings are not mentioned. -/
  | quiet
  deriving DecidableEq

namespace Opt

/-- The name of an option. -/
def name : Opt → Text
  | config => "config".toList
  | root => "root".toList
  | format => "format".toList
  | strictWarnings => "strict-warnings".toList
  | quiet => "quiet".toList

/-- The letter of an option. -/
def letter? : Opt → Option Char
  | quiet => some 'q'
  | _ => none

/-- The option takes a value. -/
def takesValue : Opt → Bool
  | config | root | format => true
  | strictWarnings | quiet => false

end Opt

/-- What an argument is by its spelling. -/
inductive Argument where
  /-- All further arguments are operands. -/
  | separator
  /-- The name of an option, and its value if that is attached. -/
  | long (name : Text) (value? : Option Text)
  /-- The letters of flags. -/
  | short (letters : Text)
  /-- A value by itself. -/
  | operand
  deriving DecidableEq

/-- The spelling of an argument. -/
def Argument.ofText : Text → Argument
  | ['-', '-'] => separator
  | '-' :: '-' :: t =>
    match t.dropWhile (· != '=') with
    | [] => long t none
    | _ :: value => long (t.takeWhile (· != '=')) (some value)
  | '-' :: c :: t => short (c :: t)
  | _ => operand

/-- Options with their values, which are empty for flags, and operands. -/
structure Arguments where
  options : List (Opt × Text)
  operands : List Text

namespace Arguments

/-- Adds options in front. -/
def withOptions (options : List (Opt × Text)) (a : Arguments) : Arguments :=
  { a with options := options ++ a.options }

/-- Adds an operand in front. -/
def withOperand (t : Text) (a : Arguments) : Arguments := { a with operands := t :: a.operands }

/-- Reads arguments, of which the options must be among the allowed ones. -/
def read? (allowed : List Opt) : List Text → Option Arguments
  | [] => some ⟨[], []⟩
  | t :: rest =>
    match Argument.ofText t with
    | .separator => some ⟨[], rest⟩
    | .operand => (read? allowed rest).map (withOperand t)
    | .short letters => do
      let flags ← letters.mapM fun c => allowed.find? (·.letter? == some c)
      (read? allowed rest).map (withOptions (flags.map fun flag => (flag, [])))
    | .long name value? =>
      match allowed.find? (·.name == name) with
      | none => none
      | some option =>
        match option.takesValue, value? with
        | false, none => (read? allowed rest).map (withOptions [(option, [])])
        | false, some _ => none
        | true, some value => (read? allowed rest).map (withOptions [(option, value)])
        | true, none =>
          match rest with
          | [] => none
          | value :: rest =>
            if Argument.ofText value = .operand then
              (read? allowed rest).map (withOptions [(option, value)])
            else none

/-- No option is given twice. -/
def isUnambiguous (a : Arguments) : Bool := decide (a.options.map Prod.fst).Nodup

/-- An option is given. -/
def has (a : Arguments) (o : Opt) : Bool := (a.options.lookup o).isSome

end Arguments

end TierLint.CommandLine
