import HostTimeline.Binary64
import HostTimeline.Decimal.Basic

/-!
The shortest decimal that reads back to a binary64 number.  A decimal reads back
if it lies in the interval of the numbers that round to it, ends included when
the significand is even.  The grids of powers of ten are tried from the coarsest
on; on the first one with a point in the interval the nearest such point is taken.
-/

namespace HostTimeline.Decimal

/-- Multiples of a power of ten beside the quarters of a binary unit: `count` of
the former are less than `quarters` of the latter exactly if
`count * step < quarters * unit`. -/
structure Grid where
  unit : Nat
  step : Nat

def Grid.ofExponents (binary decimal : Int) : Grid :=
  { unit := Nat.pow 2 (binary - 2).toNat * Nat.pow 10 (-decimal).toNat
    step := Nat.pow 2 (2 - binary).toNat * Nat.pow 10 decimal.toNat }

/-- The least significand of 53 bits, that of the powers of two. -/
def leastFullSignificand : Nat :=
  4503599627370496

/-- The exponent of the numbers next to zero. -/
def leastExponent : Int :=
  -1074

/-- Below a power of two the next number is only half as far away as above it, except
where the numbers are evenly spaced down to zero. -/
def isNarrowBelow (significand : Nat) (exponent : Int) : Bool :=
  significand == leastFullSignificand && exponent != leastExponent

/-- Whether a multiple of the step rounds to `significand · 2 ^ exponent`. -/
def readsBack (significand : Nat) (exponent : Int) (grid : Grid) (count : Nat) : Bool :=
  let lower := (4 * significand - if isNarrowBelow significand exponent then 1 else 2) * grid.unit
  let upper := (4 * significand + 2) * grid.unit
  if significand % 2 = 0 then
    decide (lower ≤ count * grid.step) && decide (count * grid.step ≤ upper)
  else
    decide (lower < count * grid.step) && decide (count * grid.step < upper)

/-- The multiple of the step that reads back and is nearest. -/
def onGrid? (tie : TieRule) (significand : Nat) (exponent : Int) (grid : Grid) : Option Nat :=
  let value := 4 * significand * grid.unit
  let below := value / grid.step
  let above := below + 1
  let back := readsBack significand exponent grid
  let middle := (below + above) * grid.step
  match back below, back above with
  | false, false => none
  | true, false => some below
  | false, true => some above
  | true, true =>
      if 2 * value < middle then some below
      else if middle < 2 * value then some above
      else
        match tie with
        | .away => some above
        | .even => some (below + below % 2)

/-- The exponents of the grids, from one above every binary64 number to one finer
than their least distance. -/
def gridExponents : List Int :=
  (List.range 640).map fun (index : Nat) => 310 - (index : Int)

/-- The shortest decimal that reads back to `significand · 2 ^ exponent`. -/
def shortest (tie : TieRule) (significand : Nat) (exponent : Int) : Decimal :=
  if significand = 0 then
    { digits := 0, exponent := 0 }
  else
    (gridExponents.findSome? fun place =>
      (onGrid? tie significand exponent (Grid.ofExponents exponent place)).map fun digits =>
        { digits, exponent := place }).getD { digits := 0, exponent := 0 }

end HostTimeline.Decimal

namespace HostTimeline.Binary64

def infinityText (negative : Bool) : List Char :=
  Decimal.sign negative ++ ['i', 'n', 'f']

/-- The shortest digits that read back, all written out; of two equally short and
near ones the greater. -/
def plainText (x : Float) : String :=
  String.ofList <|
    match parts x with
    | .notANumber => ['N', 'a', 'N']
    | .infinite negative => infinityText negative
    | .finite negative significand exponent =>
        Decimal.sign negative ++ (Decimal.shortest .away significand exponent).positional

end HostTimeline.Binary64
