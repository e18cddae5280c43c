/-!
Decimal numbers as digits and a power of ten, and their positional text.
-/

namespace HostTimeline

/-- `digits · 10 ^ exponent`. -/
structure Decimal where
  digits : Nat
  exponent : Int
deriving Repr, DecidableEq

/-- Which of two equally near candidates is taken. -/
inductive TieRule where
  | away
  | even
deriving Repr, DecidableEq

/-- The nearest integer to a quotient; halves go to the even neighbour. -/
def roundQuotient (numerator denominator : Nat) : Nat :=
  let quotient := numerator / denominator
  let rest := numerator % denominator
  if 2 * rest < denominator then quotient
  else if denominator < 2 * rest then quotient + 1
  else quotient + quotient % 2

namespace Decimal

def digitsOf (value : Nat) : List Char :=
  Nat.toDigits 10 value

def digitValue (digit : Char) : Nat :=
  digit.toNat - '0'.toNat

/-- The number that decimal digits denote. -/
def valueOf (digits : List Char) : Nat :=
  digits.foldl (fun value digit => 10 * value + digitValue digit) 0

def sign (negative : Bool) : List Char :=
  if negative then ['-'] else []

/-- A number of units of which `10 ^ places` make one. -/
def withPlaces (units places : Nat) : List Char :=
  let digits := (digitsOf units).leftpad (places + 1) '0'
  let whole := digits.length - places
  digits.take whole ++ '.' :: digits.drop whole

/-- All digits, with a point only where digits follow it. -/
def positional (decimal : Decimal) : List Char :=
  if 0 ≤ decimal.exponent then
    digitsOf decimal.digits ++ List.replicate decimal.exponent.toNat '0'
  else
    withPlaces decimal.digits (-decimal.exponent).toNat

end Decimal

end HostTimeline
