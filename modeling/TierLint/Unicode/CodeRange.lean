/-!
# Sets and shifts of code points

Character properties are tables: a set of code points is a list of ranges in
increasing order, and a mapping that keeps distances is a list of shifted
progressions. A code point that no entry mentions is outside the set, or is
its own image.
-/

set_option autoImplicit false

namespace TierLint.Unicode

/-- The code points from `first` to `last`, both included. -/
structure CodeRange where
  first : Nat
  last : Nat

/-- `n` lies in one of the ranges. The ranges are in increasing order, so the
search ends at the first range that begins behind `n`. -/
def covers : List CodeRange → Nat → Bool
  | [], _ => false
  | r :: rs, n => if n < r.first then false else n ≤ r.last || covers rs n

/-- Sends `first`, `first + step`, … up to `last` to `target`, `target + step`, …. -/
structure CodeShift where
  first : Nat
  last : Nat
  step : Nat
  target : Nat

/-- The image of `n`, if the progression holds `n`. -/
def CodeShift.image? (s : CodeShift) (n : Nat) : Option Nat :=
  if s.first ≤ n && n ≤ s.last && (n - s.first) % s.step == 0 then
    some (s.target + (n - s.first))
  else
    none

/-- The image of `n` under the first progression that holds it, else `n` itself. The progressions
are in increasing order of their first members, so the search ends at the first one that begins
behind `n`. -/
def shift : List CodeShift → Nat → Nat
  | [], n => n
  | s :: rest, n => if n < s.first then n else (s.image? n).getD (shift rest n)

end TierLint.Unicode
