import TierLint.Settings.Toml.Layout

/-!
# Dates and times

A date, a time, or a date and a time with a letter or a space between them, the
latter possibly with an offset. Seconds may be missing. Days go by the Gregorian
calendar, and a minute may have a leap second.
-/

set_option autoImplicit false

namespace TierLint.Toml

/-- A number of exactly `n` decimal digits that lies in a range. -/
def numberIn? (n low high : Nat) (t : Text) : Option (Nat × Text) :=
  let digits := t.take n
  let value := digits.foldl (fun v c => 10 * v + (c.toNat - '0'.toNat)) 0
  if digits.length == n && digits.all Char.isDigit && low ≤ value && value ≤ high then
    some (value, t.drop n)
  else none

/-- Leap years are the multiples of four, without the full centuries that are no multiples of four
centuries. -/
def isLeapYear (year : Nat) : Bool := year % 4 == 0 && (year % 100 != 0 || year % 400 == 0)

/-- Number of days of a month. -/
def daysOf (year month : Nat) : Nat :=
  if month == 2 then if isLeapYear year then 29 else 28
  else if month == 4 || month == 6 || month == 9 || month == 11 then 30
  else 31

/-- What follows a date. -/
def date? (t : Text) : Option Text := do
  let (year, t) ← numberIn? 4 0 9999 t
  let (month, t) ← numberIn? 2 1 12 (← expect? '-' t)
  let (_, t) ← numberIn? 2 1 (daysOf year month) (← expect? '-' t)
  some t

/-- What follows an hour and a minute. -/
def hourMinute? (t : Text) : Option Text := do
  let (_, t) ← numberIn? 2 0 23 t
  let (_, t) ← numberIn? 2 0 59 (← expect? ':' t)
  some t

/-- What follows a fraction of a second, which may be missing. -/
def secondFraction? (t : Text) : Option Text :=
  match expect? '.' t with
  | none => some t
  | some digits => if Text.startsBy Char.isDigit digits then some (digits.dropWhile Char.isDigit)
    else none

/-- What follows a time of day. -/
def time? (t : Text) : Option Text := do
  let t ← hourMinute? t
  match expect? ':' t with
  | none => some t
  | some t => do
    let (_, t) ← numberIn? 2 0 60 t
    secondFraction? t

/-- What follows an offset from universal time, which may be missing. -/
def offset? : Text → Option Text
  | 'Z' :: t => some t
  | 'z' :: t => some t
  | '+' :: t => hourMinute? t
  | '-' :: t => hourMinute? t
  | t => some t

/-- What follows a date and, if there is one, the time behind it. -/
def dateTime? (t : Text) : Option Text := do
  let t ← date? t
  match t with
  | [] => some []
  | c :: t => do
    if c == 'T' || c == 't' || c == ' ' then offset? (← time? t) else none

/-- The text is a date. -/
def isDate (t : Text) : Bool := date? t == some []

/-- The text is a date, a time or both. -/
def isDateTime (t : Text) : Bool := dateTime? t == some [] || time? t == some []

end TierLint.Toml
