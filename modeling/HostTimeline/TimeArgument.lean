import HostTimeline.Calendar.Clock
import HostTimeline.Calendar.Reading
import HostTimeline.Decimal.Reading
import HostTimeline.Text.Integer

/-!
Times as they are given on the command line: seconds since the epoch, a number of
days or weeks ago, or a date, which stands for its first or its last second.

Left out is how a count fails that leads back beyond the first date of the calendar, or whose days
are too many for an integer of 64 bits: nothing is said about such counts, and the number that is
read for one stands for no time.
-/

namespace HostTimeline

/-- The second of a day that a date stands for. -/
inductive DayEdge where
  | first
  | last
deriving Repr, DecidableEq

def DayEdge.second : DayEdge → Int
  | .first => 0
  | .last => 86399

inductive TimeArgumentError where
  | notFinite
  | negativeCount
  | count (error : Text.IntegerError)
  | date (error : Calendar.DateError)
deriving Repr, DecidableEq

def TimeArgumentError.message : TimeArgumentError → String
  | .notFinite => "Invalid time"
  | .negativeCount => "Invalid count"
  | .count error => error.message
  | .date error => error.message

namespace TimeArgument

/-- The number of days in a text of the form `2d` or `3w`, if it has that form. -/
def readDays? (text : List Char) : Option (Except Text.IntegerError Int) :=
  match text.getLast? with
  | some 'd' => some (Text.readInteger text.dropLast)
  | some 'w' => some ((Text.readInteger text.dropLast).map (7 * ·))
  | _ => none

/-- The first or last second of a date. -/
def readDate (edge : DayEdge) (text : List Char) : Except TimeArgumentError Float :=
  match Calendar.readDate text with
  | .error error => .error (.date error)
  | .ok date => .ok (Float.ofInt (date.dayNumber * Calendar.secondsPerDay + edge.second))

/-- Reads a time; `now` is what days and weeks are counted back from. -/
def read (now : Int) (edge : DayEdge) (text : List Char) : Except TimeArgumentError Float :=
  match Binary64.read? text with
  | some time => if time.isFinite then .ok time else .error .notFinite
  | none =>
      match readDays? text with
      | some (.error error) => .error (.count error)
      | some (.ok days) =>
          if days < 0 then .error .negativeCount
          else .ok (Float.ofInt (now - days * Calendar.secondsPerDay))
      | none => readDate edge text

end TimeArgument

end HostTimeline
