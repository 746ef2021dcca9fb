import TierLint.Settings.Toml.Key
import TierLint.Settings.Value

/-!
# Tables in the making

The tables of a settings file are put together statement by statement, and each
may be defined only once. How a table came to be decides what may still be added
to it: a table that headers merely pass through can get its own header later, a
table that a dotted key leads through can get more dotted keys instead, and
values written out are complete. A name that stands for several tables means the
last of them.
-/

set_option autoImplicit false

namespace TierLint.Toml

/-- How a table came to be. -/
inductive Origin where
  /-- A header leads through it. -/
  | passing
  /-- A dotted key leads through it. -/
  | dotted
  /-- It has its own header. -/
  | header
  deriving DecidableEq

/-- What a name stands for. -/
inductive Node where
  /-- A value that is complete. -/
  | value (v : Value)
  /-- A table. -/
  | table (origin : Origin) (fields : List (Text × Node))
  /-- Several tables, the last one first. -/
  | tables (fields : List (List (Text × Node)))

/-- The names of a table and what they stand for. -/
abbrev Fields := List (Text × Node)

mutual

/-- What a name stands for, as a value. -/
def Node.toValue : Node → Value
  | .value v => v
  | .table _ fields => .table (valuesOf fields)
  | .tables all => .array (tablesOf all).reverse

/-- The fields of a table as values. -/
def valuesOf : Fields → List (Text × Value)
  | [] => []
  | (name, node) :: fields => (name, node.toValue) :: valuesOf fields

/-- Tables as values. -/
def tablesOf : List Fields → List Value
  | [] => []
  | fields :: all => .table (valuesOf fields) :: tablesOf all

end

namespace Fields

/-- Replaces what a name stands for, or adds the name, unless `change` refuses. -/
def alter (name : Text) (change : Option Node → Option Node) : Fields → Option Fields
  | [] => (change none).map fun node => [(name, node)]
  | (n, node) :: fields =>
    if n == name then (change (some node)).map fun node => (n, node) :: fields
    else (alter name change fields).map ((n, node) :: ·)

/-- Changes the table that a name stands for, making it if the name is new. A dotted key may not
lead through a table that has its own header; any other table it claims for dotted keys. -/
def enter (dotted : Bool) (change : Origin → Fields → Option Fields) : Option Node → Option Node
  | none =>
    let origin := if dotted then .dotted else .passing
    (change origin []).map (.table origin)
  | some (.table origin fields) =>
    if dotted && origin == .header then none
    else
      let origin := if dotted then .dotted else origin
      (change origin fields).map (.table origin)
  | some (.tables (last :: earlier)) =>
    (change .header last).map fun last => .tables (last :: earlier)
  | some (.tables []) => none
  | some (.value _) => none

/-- Changes the table behind a path of names. -/
def descend (dotted : Bool) (change : Origin → Fields → Option Fields) :
    List Text → Origin → Fields → Option Fields
  | [] => change
  | name :: path => fun _ => alter name (enter dotted (descend dotted change path))

/-- Adds a value under a key. A key of several names adds it to a table that dotted keys made. -/
def insert (key : Key) (v : Value) (fields : Fields) : Option Fields :=
  let isDotted := !key.path.isEmpty
  descend isDotted
    (fun origin fields =>
      if isDotted && origin != .dotted then none
      else alter key.name (fun old? => if old?.isNone then some (.value v) else none) fields)
    key.path .header fields

/-- Opens the table of a header. The name is new, or other headers lead through its table. -/
def openTable (key : Key) (fields : Fields) : Option Fields :=
  descend false
    (fun _ =>
      alter key.name fun
        | none => some (.table .header [])
        | some (.table .passing inner) => some (.table .header inner)
        | some _ => none)
    key.path .header fields

/-- Opens one more table under a name that stands for several tables. -/
def openNext (key : Key) (fields : Fields) : Option Fields :=
  descend false
    (fun _ =>
      alter key.name fun
        | none => some (.tables [[]])
        | some (.tables all) => some (.tables ([] :: all))
        | some _ => none)
    key.path .header fields

end Fields

end TierLint.Toml
