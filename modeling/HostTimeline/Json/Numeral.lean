import HostTimeline.Decimal.Basic
import HostTimeline.Json.Value

/-!
Number literals.  A literal is taken in one character at a time and kept as sign,
digits and exponent until it is complete.  The leading digits that fit 64 bits are
its significand, which is then scaled by a power of ten in binary64.
-/

namespace HostTimeline.Json

/-- Why a text is no JSON: it ended where more was needed, or it went wrong before
its end. -/
inductive Fault where
  | endOfText
  | malformed
deriving Repr, DecidableEq

def Fault.message : Fault → String
  | .endOfText => "unexpected end of JSON text"
  | .malformed => "malformed JSON text"

structure Numeral where
  negative : Bool := false
  whole : List Char := []
  fraction : List Char := []
  exponentNegative : Bool := false
  exponent : List Char := []

/-- The part of a literal that was read last. -/
inductive NumeralStage where
  | sign
  | zero
  | whole
  | point
  | fraction
  | mark
  | exponentSign
  | exponent
deriving Repr, DecidableEq

/-- Whether a literal may end there. -/
def NumeralStage.isComplete : NumeralStage → Bool
  | .zero | .whole | .fraction | .exponent => true
  | .sign | .point | .mark | .exponentSign => false

namespace Numeral

/-- The start of a literal, if the character can start one. -/
def start? (char : Char) : Option (NumeralStage × Numeral) :=
  if char = '-' then some (.sign, { negative := true })
  else if char = '0' then some (.zero, { whole := ['0'] })
  else if char.isDigit then some (.whole, { whole := [char] })
  else none

def addWhole (numeral : Numeral) (char : Char) : Numeral :=
  { numeral with whole := numeral.whole ++ [char] }

def addFraction (numeral : Numeral) (char : Char) : Numeral :=
  { numeral with fraction := numeral.fraction ++ [char] }

def addExponent (numeral : Numeral) (char : Char) : Numeral :=
  { numeral with exponent := numeral.exponent ++ [char] }

def isMark (char : Char) : Bool :=
  char == 'e' || char == 'E'

/-- Takes in the next character, or nothing if the literal ended before it. -/
def next? (stage : NumeralStage) (numeral : Numeral) (char : Char) :
    Except Fault (Option (NumeralStage × Numeral)) :=
  match stage with
  | .sign =>
      if char = '0' then .ok (some (.zero, numeral.addWhole char))
      else if char.isDigit then .ok (some (.whole, numeral.addWhole char))
      else .error .malformed
  | .zero =>
      if char.isDigit then .error .malformed
      else if char = '.' then .ok (some (.point, numeral))
      else if isMark char then .ok (some (.mark, numeral))
      else .ok none
  | .whole =>
      if char.isDigit then .ok (some (.whole, numeral.addWhole char))
      else if char = '.' then .ok (some (.point, numeral))
      else if isMark char then .ok (some (.mark, numeral))
      else .ok none
  | .point =>
      if char.isDigit then .ok (some (.fraction, numeral.addFraction char))
      else .error .malformed
  | .fraction =>
      if char.isDigit then .ok (some (.fraction, numeral.addFraction char))
      else if isMark char then .ok (some (.mark, numeral))
      else .ok none
  | .mark =>
      if char = '+' then .ok (some (.exponentSign, numeral))
      else if char = '-' then .ok (some (.exponentSign, { numeral with exponentNegative := true }))
      else if char.isDigit then .ok (some (.exponent, numeral.addExponent char))
      else .error .malformed
  | .exponentSign =>
      if char.isDigit then .ok (some (.exponent, numeral.addExponent char))
      else .error .malformed
  | .exponent =>
      if char.isDigit then .ok (some (.exponent, numeral.addExponent char))
      else .ok none

/-- The greatest significand, which is the greatest 64-bit integer. -/
def greatestSignificand : Nat :=
  18446744073709551615

/-- The greatest magnitude of a negative integer. -/
def greatestNegative : Nat :=
  9223372036854775808

/-- Takes up digits as long as the significand fits, and gives the others back. -/
def takeDigits (significand : Nat) : List Char → Nat × List Char
  | [] => (significand, [])
  | digit :: rest =>
      let next := 10 * significand + Decimal.digitValue digit
      if greatestSignificand < next then (significand, digit :: rest) else takeDigits next rest

/-- A power of ten, correctly rounded. -/
def tenTo (places : Nat) : Float :=
  Float.ofScientific 1 false places

/-- Moves the point to the left, by at most 308 places at a time.  Two such steps
leave nothing of a significand. -/
def divideByTenTo (value : Float) (places : Nat) : Float :=
  if places ≤ 308 then value / tenTo places
  else value / tenTo 308 / tenTo (min (places - 308) 308)

/-- Moves the point by a number of places, unless the result is out of range. -/
def scale? (value : Float) (exponent : Int) : Option Float :=
  if exponent < 0 then
    some (divideByTenTo value exponent.natAbs)
  else if exponent ≤ 308 then
    let scaled := value * tenTo exponent.natAbs
    if scaled.isFinite then some scaled else none
  else if value == 0 then
    some value
  else
    none

/-- The number in binary64. -/
def toFloat? (numeral : Numeral) : Option Float :=
  let (significand, surplus) := takeDigits 0 numeral.whole
  let (significand, ignored) := takeDigits significand numeral.fraction
  let given : Int := Binary64.signed numeral.exponentNegative (Decimal.valueOf numeral.exponent)
  let exponent := given + surplus.length - (numeral.fraction.length - ignored.length : Nat)
  (scale? (Float.ofNat significand) exponent).map fun value =>
    if numeral.negative then -value else value

/-- The integer, if the literal is one and fits.  A negative zero is none. -/
def toInteger? (numeral : Numeral) : Option Int :=
  if numeral.fraction.isEmpty && numeral.exponent.isEmpty then
    let value := Decimal.valueOf numeral.whole
    if numeral.negative then
      if 1 ≤ value ∧ value ≤ greatestNegative then some (-(value : Int)) else none
    else if value ≤ greatestSignificand then some value
    else none
  else
    none

def toNumber (numeral : Numeral) : Except Fault Number :=
  match numeral.toInteger? with
  | some value => .ok (.integer value)
  | none =>
      match numeral.toFloat? with
      | some value => .ok (.binary value)
      | none => .error .malformed

end Numeral

end HostTimeline.Json
