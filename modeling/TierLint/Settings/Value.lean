import TierLint.Text

/-!
# Values of settings files

The values that a settings file can hold, whatever its notation: what a reader
of the notation produces and what settings are decoded from. Settings hold no
fractional numbers and no dates, so only their presence is kept.
-/

set_option autoImplicit false

namespace TierLint

/-- A value of a settings file. -/
inductive Value where
  | null
  | bool (b : Bool)
  | int (n : Int)
  | float
  | dateTime
  | string (t : Text)
  | array (elements : List Value)
  | table (fields : List (Text × Value))
  deriving Inhabited

namespace Value

/-- The fields of a record with the given field names: those of a table, or the
elements of an array in the order of the names. A date or time is a record of
its parts, none of which is among the names. `surplus` tells whether an array may
have more elements than there are names. -/
def record? (surplus : Bool) (names : List Text) : Value → Option (List (Text × Value))
  | .table fields => some fields
  | .array elements =>
    if surplus || elements.length ≤ names.length then some (names.zip elements) else none
  | .dateTime => some []
  | _ => none

/-- Decodes a field of a record; a record without the field has the given value there. -/
def field? {α : Type} (fields : List (Text × Value)) (name : String) (standard : α)
    (decode : Value → Option α) : Option α :=
  match fields.lookup name.toList with
  | none => some standard
  | some v => decode v

/-- The largest number that settings may hold. -/
def maxCount : Nat := Nat.pow 2 64 - 1

/-- A whole number that is not negative. -/
def count? : Value → Option Nat
  | .int (.ofNat n) => if n ≤ maxCount then some n else none
  | _ => none

/-- A string. -/
def string? : Value → Option Text
  | .string t => some t
  | _ => none

/-- A list of strings. -/
def strings? : Value → Option (List Text)
  | .array elements => elements.mapM string?
  | _ => none

/-- A string, or null for none. -/
def optionalString? : Value → Option (Option Text)
  | .null => some none
  | v => v.string?.map some

end Value

end TierLint
