/-!
Dates of the Gregorian calendar, extended to all years, and their day numbers
counted from 1970-01-01.  Years are counted from March, so that the leap day is
the last day of a year, and in eras of 400 years, which all have 146097 days.
-/

namespace HostTimeline.Calendar

structure Date where
  year : Int
  month : Nat
  day : Nat
deriving Repr, DecidableEq

def daysPerEra : Int :=
  146097

/-- Days from 0000-03-01 to 1970-01-01. -/
def daysToEpoch : Int :=
  719468

def isLeap (year : Int) : Bool :=
  (year % 4 == 0 && year % 100 != 0) || year % 400 == 0

def monthLength (year : Int) (month : Nat) : Nat :=
  if month = 2 then (if isLeap year then 29 else 28)
  else if month = 4 || month = 6 || month = 9 || month = 11 then 30
  else 31

namespace Date

/-- The years that dates are told in. -/
def yearRange : Int × Int :=
  (-262143, 262142)

def isValid (date : Date) : Bool :=
  decide (yearRange.1 ≤ date.year) && decide (date.year ≤ yearRange.2) &&
  decide (1 ≤ date.month) && decide (date.month ≤ 12) &&
  decide (1 ≤ date.day) && decide (date.day ≤ monthLength date.year date.month)

def dayNumber (date : Date) : Int :=
  let year := if date.month ≤ 2 then date.year - 1 else date.year
  let era := year / 400
  let yearOfEra := year % 400
  let monthFromMarch : Int := if date.month ≤ 2 then date.month + 9 else date.month - 3
  let dayOfYear := (153 * monthFromMarch + 2) / 5 + date.day - 1
  let dayOfEra := yearOfEra * 365 + yearOfEra / 4 - yearOfEra / 100 + dayOfYear
  era * daysPerEra + dayOfEra - daysToEpoch

def ofDayNumber (number : Int) : Date :=
  let fromMarch := number + daysToEpoch
  let era := fromMarch / daysPerEra
  let dayOfEra := fromMarch % daysPerEra
  let yearOfEra := (dayOfEra - dayOfEra / 1460 + dayOfEra / 36524 - dayOfEra / 146096) / 365
  let dayOfYear := dayOfEra - (365 * yearOfEra + yearOfEra / 4 - yearOfEra / 100)
  let monthFromMarch := (5 * dayOfYear + 2) / 153
  let day := dayOfYear - (153 * monthFromMarch + 2) / 5 + 1
  let month := if monthFromMarch < 10 then monthFromMarch + 3 else monthFromMarch - 9
  let year := yearOfEra + era * 400
  { year := if month ≤ 2 then year + 1 else year
    month := month.toNat
    day := day.toNat }

end Date

end HostTimeline.Calendar
