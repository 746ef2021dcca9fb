import TierLint.Settings.Toml.StringLiteral

/-!
# Numerals

Integers in base ten with a sign, or in base two, eight or sixteen without one,
and floating-point numbers. Single underscores may stand between digits. Of
floating-point numbers only the form counts, and that a double holds them.
-/

set_option autoImplicit false

namespace TierLint.Toml

/-- Digits with single underscores between them. -/
def areDigits (isDigit : Char → Bool) (t : Text) : Bool :=
  (Text.splitOn '_' t).all fun run => !run.isEmpty && run.all isDigit

/-- Decimal digits of which the first is zero only if it is the last. -/
def isWhole (t : Text) : Bool :=
  areDigits Char.isDigit t && (t.head? != some '0' || t.length == 1)

/-- The number that the digits mean; everything else is skipped. -/
def natOfDigits (base : Nat) (t : Text) : Nat :=
  (t.filterMap hexDigit?).foldl (fun n d => base * n + d) 0

/-- The sign in front of a numeral as a factor, and what follows it. -/
def signed : Text → Int × Text
  | '-' :: t => (-1, t)
  | '+' :: t => (1, t)
  | t => (1, t)

/-- A numeral in the given base, unless it has other digits. -/
def radix? (base : Nat) (t : Text) : Option Nat :=
  if areDigits (fun c => (hexDigit? c).any (· < base)) t then some (natOfDigits base t) else none

/-- The number that an integer numeral means. -/
def magnitude? : Text → Option Int
  | '0' :: 'x' :: t => (radix? 16 t).map Int.ofNat
  | '0' :: 'o' :: t => (radix? 8 t).map Int.ofNat
  | '0' :: 'b' :: t => (radix? 2 t).map Int.ofNat
  | t =>
    let (factor, digits) := signed t
    if isWhole digits then some (factor * natOfDigits 10 digits) else none

/-- An integer numeral that fits into 128 bits with or without sign. -/
def integer? (t : Text) : Option Int :=
  (magnitude? t).filter fun n => -(Nat.pow 2 127 : Int) ≤ n && n < (Nat.pow 2 128 : Int)

/-- The least number that rounds to no double. -/
def doubleLimit : Nat := Nat.pow 2 1024 - Nat.pow 2 970

/-- The number `m * 10 ^ e` rounds to a double. It lies below the power of ten with its number of
digits, and not below the one before; the limit has 309 digits. -/
def fitsDouble (m : Nat) (e : Int) : Bool :=
  let digits : Int := (Nat.toDigits 10 m).length + e
  m == 0 || digits < 309
    || (digits == 309 && m * Nat.pow 10 e.toNat < doubleLimit * Nat.pow 10 (-e).toNat)

/-- A decimal fraction with an exponent: a whole number, digits behind the point and an exponent,
of which one of the latter may be missing. -/
def isFraction (mantissa : Text) (exponent? : Option Text) : Bool :=
  let (factor, digits) := signed (exponent?.getD ['0'])
  let e := factor * natOfDigits 10 digits
  areDigits Char.isDigit digits &&
    match Text.splitOn '.' mantissa with
    | [whole] => exponent?.isSome && isWhole whole && fitsDouble (natOfDigits 10 whole) e
    | [whole, fraction] =>
      isWhole whole && areDigits Char.isDigit fraction
        && fitsDouble (natOfDigits 10 (whole ++ fraction))
            (e - (fraction.filter Char.isDigit).length)
    | _ => false

/-- A floating-point number, infinity or no number. -/
def isFloat (t : Text) : Bool :=
  let t := (signed t).2
  let isMark := fun c => c == 'e' || c == 'E'
  t == ['i', 'n', 'f'] || t == ['n', 'a', 'n']
    || isFraction (t.takeWhile (!isMark ·))
        (match t.dropWhile (!isMark ·) with
         | [] => none
         | _ :: exponent => some exponent)

end TierLint.Toml
