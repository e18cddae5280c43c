import HostTimeline.Decimal.Shortest
import HostTimeline.Json.Value

/-!
Compact JSON text of strings and numbers.
-/

namespace HostTimeline.Json

def hexDigit (value : Nat) : Char :=
  if value < 10 then Char.ofNat ('0'.toNat + value) else Char.ofNat ('a'.toNat + value - 10)

/-- Quotes, backslashes and control characters are escaped, all else stands for
itself. -/
def escapeChar (char : Char) : List Char :=
  match char with
  | '"' => ['\\', '"']
  | '\\' => ['\\', '\\']
  | '\x08' => ['\\', 'b']
  | '\t' => ['\\', 't']
  | '\n' => ['\\', 'n']
  | '\x0c' => ['\\', 'f']
  | '\r' => ['\\', 'r']
  | char =>
      if char.toNat < 0x20 then
        ['\\', 'u', '0', '0', hexDigit (char.toNat / 16), hexDigit (char.toNat % 16)]
      else
        [char]

def quotedChars (text : String) : List Char :=
  '"' :: (text.toList.flatMap escapeChar ++ ['"'])

/-- Digits, with a point after the first if there are more, and a signed exponent. -/
def scientificChars (digits : List Char) (exponent : Int) : List Char :=
  let mantissa :=
    match digits with
    | first :: second :: rest => first :: '.' :: second :: rest
    | digits => digits
  let sign := if exponent < 0 then '-' else '+'
  mantissa ++ 'e' :: sign :: Decimal.digitsOf exponent.natAbs

/-- The shortest digits that read back, of two equally near ones the even.  They are
written out, with a decimal in any case, if the first stands for at most 10^15 and
at least 10^-5, otherwise with an exponent. -/
def binaryChars (x : Float) : List Char :=
  match Binary64.parts x with
  | .notANumber | .infinite _ => "null".toList
  | .finite negative significand exponent =>
      let decimal := Decimal.shortest .even significand exponent
      let digits := Decimal.digitsOf decimal.digits
      let place := (digits.length : Int) + decimal.exponent - 1
      Decimal.sign negative ++
        if -5 ≤ place ∧ place < 16 then
          if 0 ≤ decimal.exponent then decimal.positional ++ ['.', '0'] else decimal.positional
        else
          scientificChars digits place

def numberChars : Number → List Char
  | .integer value => Decimal.sign (decide (value < 0)) ++ Decimal.digitsOf value.natAbs
  | .binary value => binaryChars value

end HostTimeline.Json
