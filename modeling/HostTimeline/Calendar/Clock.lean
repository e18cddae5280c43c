import HostTimeline.Binary64
import HostTimeline.Calendar.Date
import HostTimeline.Decimal.Basic

/-!
Times of day, and the text of a time: date and time of day in UTC, to the second.
-/

namespace HostTimeline.Calendar

def secondsPerDay : Int :=
  86400

/-- Digits with zeros in front up to a width. -/
def padded (width value : Nat) : List Char :=
  (Decimal.digitsOf value).leftpad width '0'

/-- Four digits; a sign is written in front of negative years and of those with
more than four digits. -/
def yearChars (year : Int) : List Char :=
  let sign := if year < 0 then ['-'] else if 9999 < year then ['+'] else []
  sign ++ padded 4 year.natAbs

def dateChars (date : Date) : List Char :=
  yearChars date.year ++ '-' :: padded 2 date.month ++ '-' :: padded 2 date.day

/-- Hours, minutes and seconds of a second of the day. -/
def clockChars (second : Nat) : List Char :=
  padded 2 (second / 3600) ++ ':' :: padded 2 (second / 60 % 60) ++ ':' :: padded 2 (second % 60)

/-- Date and time of day of a second since the epoch, for the years that dates are
told in. -/
def momentChars? (seconds : Int) : Option (List Char) :=
  let date := Date.ofDayNumber (seconds / secondsPerDay)
  if Date.yearRange.1 ≤ date.year ∧ date.year ≤ Date.yearRange.2 then
    some (dateChars date ++ ' ' :: clockChars (seconds % secondsPerDay).toNat)
  else
    none

/-- The whole seconds of a time.  What is no number counts as the epoch; the
infinities have none. -/
def wholeSeconds? (time : Float) : Option Int :=
  match Binary64.parts time with
  | .notANumber => some 0
  | _ => Binary64.floor? time

/-- The text of a time, if it has a date. -/
def timeChars? (time : Float) : Option (List Char) :=
  wholeSeconds? time >>= momentChars?

end HostTimeline.Calendar
