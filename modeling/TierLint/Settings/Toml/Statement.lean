import TierLint.Settings.Toml.Literal

/-!
# Settings files

A settings file in TOML notation is a list of statements, each on lines of its
own: entries of a key and a value, and headers that say to which table the
entries behind them belong. The text may begin with a byte order mark.
-/

set_option autoImplicit false

namespace TierLint.Toml

/-- A statement of a settings file. -/
inductive Statement where
  /-- A key and its value. -/
  | entry (key : Key) (v : Value)
  /-- The header of a table. -/
  | table (key : Key)
  /-- The header of one of several tables with the same name. -/
  | next (key : Key)

/-- The header behind its opening brackets. -/
def header? (t : Text) : Option (Statement × Text) :=
  match expect? '[' t with
  | some t => do
    let (key, t) ← key? depthLimit t
    some (.next key, ← expect? ']' (← expect? ']' t))
  | none => do
    let (key, t) ← key? depthLimit t
    some (.table key, ← expect? ']' t)

/-- The statement at the start of a text. -/
def statement? (t : Text) : Option (Statement × Text) :=
  match expect? '[' t with
  | some t => header? t
  | none => do
    let ((key, v), t) ← assignment? skipBlanks (value? depthLimit) t
    some (.entry key v, t)

/-- The statements of a text, of which there are at most `limit`. -/
def statements? : (limit : Nat) → Text → Option (List Statement)
  | 0, _ => none
  | limit + 1, t =>
    match skipGap false t with
    | [] => some []
    | t => do
      let (s, t) ← statement? t
      let rest ← statements? limit (← lineEnd? t)
      some (s :: rest)

/-- The tables so far, and the names that lead to the one that entries belong to. -/
structure Progress where
  fields : Fields
  here : List Text

/-- Carries out a statement. -/
def Progress.step (p : Progress) : Statement → Option Progress
  | .entry key v => do
    let fields ← Fields.descend false (fun _ => Fields.insert key v) p.here .header p.fields
    some { p with fields }
  | .table key => do some ⟨← Fields.openTable key p.fields, key.path ++ [key.name]⟩
  | .next key => do some ⟨← Fields.openNext key p.fields, key.path ++ [key.name]⟩

/-- The text without a byte order mark at its start. -/
def withoutMark : Text → Text
  | '\ufeff' :: t => t
  | t => t

/-- The value of a settings file, a table. -/
def parse? (t : Text) : Option Value := do
  let t := withoutMark t
  let statements ← statements? (t.length + 1) t
  let p ← statements.foldlM Progress.step ⟨[], []⟩
  some (.table (valuesOf p.fields))

end TierLint.Toml
