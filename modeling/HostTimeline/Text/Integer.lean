import HostTimeline.Decimal.Basic

/-!
Reading a 64-bit signed integer from text: an optional sign and decimal digits.
-/

namespace HostTimeline.Text

inductive IntegerError where
  | empty
  | invalidDigit
  | tooLarge
  | tooSmall
deriving Repr, DecidableEq

def IntegerError.message : IntegerError → String
  | .empty => "cannot parse integer from empty string"
  | .invalidDigit => "invalid digit found in string"
  | .tooLarge => "number too large to fit in target type"
  | .tooSmall => "number too small to fit in target type"

def greatestInteger : Int :=
  9223372036854775807

def leastInteger : Int :=
  -9223372036854775808

/-- Reads on from the digits before.  The first digit that is none, or with which
the number no longer fits, decides. -/
def readDigits (negative : Bool) (value : Int) : List Char → Except IntegerError Int
  | [] => .ok value
  | char :: rest =>
      if char.isDigit then
        let digit : Int := Decimal.digitValue char
        let next := if negative then 10 * value - digit else 10 * value + digit
        if greatestInteger < next then .error .tooLarge
        else if next < leastInteger then .error .tooSmall
        else readDigits negative next rest
      else
        .error .invalidDigit

def readInteger : List Char → Except IntegerError Int
  | [] => .error .empty
  | ['+'] | ['-'] => .error .invalidDigit
  | '+' :: digits => readDigits false 0 digits
  | '-' :: digits => readDigits true 0 digits
  | digits => readDigits false 0 digits

end HostTimeline.Text
