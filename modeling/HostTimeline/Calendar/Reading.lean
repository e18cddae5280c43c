import HostTimeline.Calendar.Date
import HostTimeline.Decimal.Basic
import HostTimeline.Text.Blank

/-!
Reading a date: year, month and day with dashes between them.  White space is
skipped before each number.  A year has up to four digits, or a sign and any
number of them; month and day have one or two.
-/

namespace HostTimeline.Calendar

inductive DateError where
  | tooShort
  | invalid
  | outOfRange
  | tooLong
deriving Repr, DecidableEq

def DateError.message : DateError → String
  | .tooShort => "premature end of input"
  | .invalid => "input contains invalid characters"
  | .outOfRange => "input is out of range"
  | .tooLong => "trailing input"

/-- Reads the digits at the start of a text, at most `limit` of them if there is a
limit, and at least one. -/
def readNumber (limit : Option Nat) (text : List Char) : Except DateError (Nat × List Char) :=
  let digits := (text.takeWhile Char.isDigit).take (limit.getD text.length)
  if text.isEmpty then
    .error .tooShort
  else if digits.isEmpty then
    .error .invalid
  else
    .ok (Decimal.valueOf digits, text.drop digits.length)

def readDash : List Char → Except DateError (List Char)
  | [] => .error .tooShort
  | char :: rest => if char = '-' then .ok rest else .error .invalid

/-- Years are read as 32-bit signed integers. -/
def leastYear : Int :=
  -2147483648

def greatestYear : Int :=
  2147483647

def readYear (text : List Char) : Except DateError (Int × List Char) := do
  let (year, rest) ←
    match Text.trimStart text with
    | '-' :: digits => do
        let (value, rest) ← readNumber none digits
        pure (-(value : Int), rest)
    | '+' :: digits => do
        let (value, rest) ← readNumber none digits
        pure ((value : Int), rest)
    | digits => do
        let (value, rest) ← readNumber (some 4) digits
        pure ((value : Int), rest)
  if leastYear ≤ year ∧ year ≤ greatestYear then return (year, rest) else throw .outOfRange

/-- Reads a month or a day, which is at most `greatest`. -/
def readPart (greatest : Nat) (text : List Char) : Except DateError (Nat × List Char) := do
  let (value, rest) ← readNumber (some 2) (Text.trimStart text)
  if 1 ≤ value ∧ value ≤ greatest then return (value, rest) else throw .outOfRange

def readDate (text : List Char) : Except DateError Date := do
  let (year, rest) ← readYear text
  let rest ← readDash rest
  let (month, rest) ← readPart 12 rest
  let rest ← readDash rest
  let (day, rest) ← readPart 31 rest
  if !rest.isEmpty then
    throw .tooLong
  let date : Date := { year, month, day }
  if date.isValid then return date else throw .outOfRange

end HostTimeline.Calendar
