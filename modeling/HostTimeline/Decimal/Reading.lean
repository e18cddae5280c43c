import HostTimeline.Binary64
import HostTimeline.Decimal.Basic

/-!
Reading a binary64 number from decimal text: an optional sign, then `inf`,
`infinity` or `nan` in any case, or digits with an optional point and an optional
exponent.  The number nearest to the decimal is taken.
-/

namespace HostTimeline.Binary64

def infinity : Float :=
  Float.ofBits 0x7FF0000000000000

def notANumber : Float :=
  Float.ofBits 0x7FF8000000000000

/-- The number nearest to `digits · 10 ^ exponent`.  A decimal of 310 or more digits
before its point is above every finite number, and one that starts at the 325th
place after it is below half of the least one. -/
def nearest (digits : Nat) (exponent : Int) : Float :=
  let size := ((Decimal.digitsOf digits).length : Int) + exponent
  if digits = 0 then Float.ofNat 0
  else if 310 ≤ size then infinity
  else if size < -324 then Float.ofNat 0
  else Float.ofScientific digits (decide (exponent < 0)) exponent.natAbs

/-- The value of a sign and digits, if there are digits. -/
def readExponent? (text : List Char) : Option Int :=
  let signed? (negative : Bool) (digits : List Char) : Option Int :=
    if digits.isEmpty || !digits.all Char.isDigit then none
    else some (signed negative (Decimal.valueOf digits))
  match text with
  | '+' :: digits => signed? false digits
  | '-' :: digits => signed? true digits
  | digits => signed? false digits

def readMagnitude? (text : List Char) : Option Float :=
  let whole := text.takeWhile Char.isDigit
  let rest := text.dropWhile Char.isDigit
  let (fraction, rest) :=
    match rest with
    | '.' :: rest => (rest.takeWhile Char.isDigit, rest.dropWhile Char.isDigit)
    | rest => ([], rest)
  if whole.isEmpty && fraction.isEmpty then
    none
  else
    let value (exponent : Int) : Float :=
      nearest (Decimal.valueOf (whole ++ fraction)) (exponent - fraction.length)
    match rest with
    | [] => some (value 0)
    | mark :: rest =>
        if mark = 'e' || mark = 'E' then (readExponent? rest).map value else none

def readUnsigned? (text : List Char) : Option Float :=
  let word := text.map Char.toLower
  if word = "inf".toList || word = "infinity".toList then some infinity
  else if word = "nan".toList then some notANumber
  else readMagnitude? text

/-- The number a text denotes. -/
def read? (text : List Char) : Option Float :=
  match text with
  | '+' :: rest => readUnsigned? rest
  | '-' :: rest => (readUnsigned? rest).map Neg.neg
  | rest => readUnsigned? rest

end HostTimeline.Binary64
