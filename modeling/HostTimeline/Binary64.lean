import HostTimeline.Scalar

/-!
Exact readings of binary64 numbers.  `parts` gives sign, significand and
exponent; the integer parts, the rounding and the total order below are computed
from the exact value, so none of them can lose precision.
-/

namespace HostTimeline.Binary64

/-- The exact content of a binary64 number.  A finite one is
`± significand · 2 ^ exponent`. -/
inductive Parts where
  | notANumber
  | infinite (negative : Bool)
  | finite (negative : Bool) (significand : Nat) (exponent : Int)
deriving Repr, DecidableEq

def isNegative : Float.Model.UnpackedFloat.Sign → Bool
  | .negative => true
  | .positive => false

def parts (x : Float) : Parts :=
  match x.toModel.unpack with
  | .notANumber => .notANumber
  | .infinity sign => .infinite (isNegative sign)
  | .zero sign => .finite (isNegative sign) 0 0
  | .finite sign significand exponent _ => .finite (isNegative sign) significand exponent

/-- The bit that marks negative numbers. -/
def signBit : UInt64 :=
  0x8000000000000000

/-- Position in the order −∞ < … < −0 < +0 < … < +∞ < NaN, which is the order of
the bit patterns with the negative half turned round and put first. -/
def rank (x : Float) : UInt64 :=
  let bits := x.toBits
  if bits < signBit then bits + signBit else ~~~bits

/-- The number of parts that make up one, for a number with a fractional
exponent. -/
def fractionUnit (exponent : Int) : Nat :=
  Nat.pow 2 (-exponent).toNat

def signed (negative : Bool) (magnitude : Nat) : Int :=
  if negative then -(magnitude : Int) else magnitude

/-- The integer a number is equal to, if there is one. -/
def integer? (x : Float) : Option Int :=
  match parts x with
  | .finite negative significand exponent =>
      if 0 ≤ exponent then
        some (signed negative (significand * Nat.pow 2 exponent.toNat))
      else if significand % fractionUnit exponent = 0 then
        some (signed negative (significand / fractionUnit exponent))
      else
        none
  | _ => none

/-- The greatest integer that is not above a finite number. -/
def floor? (x : Float) : Option Int :=
  match parts x with
  | .finite negative significand exponent =>
      if 0 ≤ exponent then
        some (signed negative (significand * Nat.pow 2 exponent.toNat))
      else
        some ((signed negative significand).fdiv (fractionUnit exponent))
  | _ => none

/-- The nearest integer, halves away from zero; the sign is kept, also that of a
zero. -/
def round (x : Float) : Float :=
  match parts x with
  | .finite negative significand exponent =>
      if 0 ≤ exponent then
        x
      else
        let unit := fractionUnit exponent
        let nearest := Float.ofNat ((2 * significand + unit) / (2 * unit))
        if negative then -nearest else nearest
  | _ => x

/-- Negative zero, which even `-0 + -0` leaves unchanged. -/
def negativeZero : Float :=
  -(Float.ofNat 0)

end HostTimeline.Binary64

namespace HostTimeline

instance : Scalar Float where
  ofInt := Float.ofInt
  neutral := Binary64.negativeZero
  precedes left right := decide (Binary64.rank left ≤ Binary64.rank right)
  round := Binary64.round

end HostTimeline
