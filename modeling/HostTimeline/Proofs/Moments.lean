import HostTimeline.Listing.States
import HostTimeline.Proofs.DateText
import HostTimeline.Proofs.Number.Floor

/-!
Printed times.  A time has a date if its second is in one of the years that dates are told in.
The date is then read back as the first and the last second of its day, and the time of day counts
from the first one, so that the text tells the second (`Listing.momentCell_tells`).
-/

namespace HostTimeline

namespace Calendar

section Texts

/-- A text up to its first space. -/
def dateOf (text : String) : List Char :=
  text.toList.takeWhile (· ≠ ' ')

/-- A text after its first space. -/
def clockOf (text : String) : List Char :=
  (text.toList.dropWhile (· ≠ ' ')).drop 1

/-- A number below a bound, in two digits. -/
structure IsPair (digits : List Char) (value bound : Nat) : Prop where
  numeral : Text.IsNumeral digits
  length_eq : digits.length = 2
  value_eq : Decimal.valueOf digits = value
  bounded : value < bound

/-- A time of day: hours, minutes and seconds, with colons between them. -/
def IsClock (text : List Char) (hours minutes seconds : Nat) : Prop :=
  ∃ first second third, text = first ++ ':' :: (second ++ ':' :: third) ∧
    IsPair first hours 24 ∧ IsPair second minutes 60 ∧ IsPair third seconds 60

/-- What a text of a date and a time of day says of a second: the date is that of the day that the
second is in, it is read as the first and as the last second of that day, and the time of day is
the time since the first one. -/
structure TellsSecond (now : Int) (text : String) (second : Int) (first last : Float) : Prop where
  date_eq : dateOf text = dateChars (Date.ofDayNumber (second / 86400))
  first_read : TimeArgument.read now .first (dateOf text) = .ok first
  first_equals : Binary64.EqualsInteger first (86400 * (second / 86400))
  last_read : TimeArgument.read now .last (dateOf text) = .ok last
  last_equals : Binary64.EqualsInteger last (86400 * (second / 86400) + 86399)
  begun : Binary64.toRat first ≤ second
  ends : second ≤ Binary64.toRat last
  clock : ∃ hours minutes seconds, IsClock (clockOf text) hours minutes seconds ∧
    (second : Rat) - Binary64.toRat first = 3600 * hours + 60 * minutes + seconds

theorem isPair_padded {value bound : Nat} (bounded : value < bound) (small : bound ≤ 100) :
    IsPair (padded 2 value) value bound where
  numeral := isNumeral_padded 2 value
  length_eq := length_padded (by decide) (Nat.lt_of_lt_of_le bounded small)
  value_eq := valueOf_padded 2 value
  bounded := bounded

theorem isClock_clockChars {second : Nat} (within : second < 86400) :
    IsClock (clockChars second) (second / 3600) (second / 60 % 60) (second % 60) := by
  refine ⟨padded 2 (second / 3600), padded 2 (second / 60 % 60), padded 2 (second % 60), ?_,
    isPair_padded (by omega) (by decide), isPair_padded (Nat.mod_lt _ (by decide)) (by decide),
    isPair_padded (Nat.mod_lt _ (by decide)) (by decide)⟩
  rw [clockChars, List.append_assoc, List.cons_append]

/-- A text is one time of day at most. -/
theorem IsClock.unique {text : List Char} {hours minutes seconds otherHours otherMinutes
    otherSeconds : Nat} (clock : IsClock text hours minutes seconds)
    (other : IsClock text otherHours otherMinutes otherSeconds) :
    hours = otherHours ∧ minutes = otherMinutes ∧ seconds = otherSeconds := by
  obtain ⟨first, second, third, rfl, isHours, isMinutes, isSeconds⟩ := clock
  obtain ⟨_, _, _, same, alsoHours, alsoMinutes, alsoSeconds⟩ := other
  obtain ⟨rfl, later⟩ := List.append_inj same (isHours.length_eq.trans alsoHours.length_eq.symm)
  obtain ⟨rfl, latest⟩ := List.append_inj (List.cons_eq_cons.mp later).2
    (isMinutes.length_eq.trans alsoMinutes.length_eq.symm)
  obtain rfl := (List.cons_eq_cons.mp latest).2
  exact ⟨isHours.value_eq.symm.trans alsoHours.value_eq,
    isMinutes.value_eq.symm.trans alsoMinutes.value_eq,
    isSeconds.value_eq.symm.trans alsoSeconds.value_eq⟩

/-- A text tells one second at most. -/
theorem TellsSecond.unique {now : Int} {text : String} {second other : Int}
    {first last otherFirst otherLast : Float} (tells : TellsSecond now text second first last)
    (alsoTells : TellsSecond now text other otherFirst otherLast) : second = other := by
  obtain rfl := Except.ok.inj (tells.first_read.symm.trans alsoTells.first_read)
  obtain ⟨_, _, _, clock, since⟩ := tells.clock
  obtain ⟨_, _, _, alsoClock, alsoSince⟩ := alsoTells.clock
  obtain ⟨rfl, rfl, rfl⟩ := clock.unique alsoClock
  exact Int.cast_injective (sub_left_injective (since.trans alsoSince.symm))

end Texts

section Seconds

/-- The first second of a year. -/
def yearStart (year : Int) : Int :=
  86400 * Date.dayNumber { year, month := 1, day := 1 }

/-- A second of one of the years that dates are told in. -/
def IsDated (second : Int) : Prop :=
  yearStart (-262143) ≤ second ∧ second < yearStart 262143

instance (second : Int) : Decidable (IsDated second) :=
  inferInstanceAs (Decidable (_ ∧ _))

theorem year_lt_iff (second year : Int) :
    (Date.ofDayNumber (second / secondsPerDay)).year < year ↔ second < yearStart year := by
  rw [Date.year_ofDayNumber_lt_iff, Int.ediv_lt_iff_lt_mul (by decide), Int.mul_comm]
  rfl

theorem isDated_iff (second : Int) :
    IsDated second ↔ (Date.ofDayNumber (second / secondsPerDay)).isValid = true := by
  have begun := year_lt_iff second (-262143)
  have ends := year_lt_iff second 262143
  rw [Date.isValid_iff, and_iff_left (Date.isProper_ofDayNumber _), IsDated]
  omega

theorem wholeSeconds?_eq {time : Float} (finite : time.isFinite = true) :
    wholeSeconds? time = some ⌊Binary64.toRat time⌋ := by
  have floor := Binary64.floor?_eq finite
  unfold wholeSeconds?
  split
  next undefined =>
    unfold Binary64.floor? at floor
    rw [undefined] at floor
    cases floor
  next => exact floor

end Seconds

end Calendar

namespace Calendar

section Told

variable {second : Int}

/-- The text of a second that has a date. -/
def momentText (second : Int) : String :=
  String.ofList (dateChars (Date.ofDayNumber (second / secondsPerDay)) ++
    ' ' :: clockChars (second % secondsPerDay).toNat)

theorem ne_space_of_mem_dateChars {date : Date} {char : Char} (member : char ∈ dateChars date) :
    decide (char ≠ ' ') = true := by
  refine decide_eq_true fun space => ?_
  rw [space] at member
  rcases mem_dateChars member with digit | dash | plus
  · cases digit
  · cases dash
  · cases plus

theorem dateOf_momentText (second : Int) :
    dateOf (momentText second) = dateChars (Date.ofDayNumber (second / secondsPerDay)) := by
  rw [dateOf, momentText, String.toList_ofList,
    List.takeWhile_append_of_pos fun _ => ne_space_of_mem_dateChars,
    List.takeWhile_cons_of_neg (by decide), List.append_nil]

theorem clockOf_momentText (second : Int) :
    clockOf (momentText second) = clockChars (second % secondsPerDay).toNat := by
  rw [clockOf, momentText, String.toList_ofList,
    List.dropWhile_append_of_pos fun _ => ne_space_of_mem_dateChars,
    List.dropWhile_cons_of_neg (by decide), List.drop_one, List.tail_cons]

theorem momentText_ne_notAvailable (second : Int) : momentText second ≠ Table.notAvailable := by
  intro same
  have clock := clockOf_momentText second
  rw [same] at clock
  have colon : ':' ∈ clockChars (second % secondsPerDay).toNat := by simp [clockChars]
  rw [← clock] at colon
  cases colon

theorem momentChars?_eq (second : Int) : (momentChars? second).map String.ofList =
    if IsDated second then some (momentText second) else none := by
  have inRange := isDated_iff second
  rw [Date.isValid_iff, and_iff_left (Date.isProper_ofDayNumber _)] at inRange
  unfold momentChars?
  by_cases dated : IsDated second
  · rw [if_pos dated]
    exact congrArg _ (if_pos (inRange.mp dated))
  · rw [if_neg dated]
    exact congrArg _ (if_neg (dated ∘ inRange.mpr))

/-- The seconds of the day, as a time of day. -/
theorem exists_clock (second : Int) : ∃ hours minutes seconds : Nat,
    IsClock (clockOf (momentText second)) hours minutes seconds ∧
      second - 86400 * (second / 86400) = 3600 * hours + 60 * minutes + seconds := by
  have within : (second % 86400).toNat < 86400 := by omega
  refine ⟨(second % 86400).toNat / 3600, (second % 86400).toNat / 60 % 60,
    (second % 86400).toNat % 60, ?_, by omega⟩
  rw [clockOf_momentText]
  exact isClock_clockChars within

theorem exists_tells (now : Int) (dated : IsDated second) :
    ∃ first last, TellsSecond now (momentText second) second first last := by
  have valid := (isDated_iff second).mp dated
  obtain ⟨begun, ends⟩ := dated
  have start : yearStart (-262143) = -8334601228800 := rfl
  have stop : yearStart 262143 = 8210266876800 := rfl
  have read (edge : DayEdge) : TimeArgument.read now edge (dateOf (momentText second)) =
      .ok (Float.ofInt (86400 * (second / 86400) + edge.second)) := by
    rw [dateOf_momentText, TimeArgument.read_dateChars now edge valid, Date.dayNumber_ofDayNumber,
      Int.mul_comm]
    rfl
  have equals (edge : DayEdge) : Binary64.EqualsInteger
      (Float.ofInt (86400 * (second / 86400) + edge.second))
      (86400 * (second / 86400) + edge.second) := by
    refine Binary64.equalsInteger_ofInt ?_
    cases edge <;> simp only [DayEdge.second] <;> omega
  have first := equals .first
  have last := equals .last
  simp only [DayEdge.second, Int.add_zero] at first last
  obtain ⟨hours, minutes, seconds, clock, since⟩ := exists_clock second
  refine ⟨Float.ofInt (86400 * (second / 86400)), Float.ofInt (86400 * (second / 86400) + 86399),
    { date_eq := dateOf_momentText second
      first_read := ?_
      first_equals := first
      last_read := read .last
      last_equals := last
      begun := ?_
      ends := ?_
      clock := ⟨hours, minutes, seconds, clock, ?_⟩ }⟩
  · rw [read, DayEdge.second, Int.add_zero]
  · rw [first.toRat_eq]
    exact Int.cast_le.mpr (by omega)
  · rw [last.toRat_eq]
    exact Int.cast_le.mpr (by omega)
  · rw [first.toRat_eq]
    exact_mod_cast since

end Told

end Calendar

namespace Listing

open Calendar

theorem momentCell_eq {time : Float} (finite : time.isFinite = true) :
    momentCell time = if IsDated ⌊Binary64.toRat time⌋ then momentText ⌊Binary64.toRat time⌋
      else Table.notAvailable := by
  have cell : momentCell time =
      ((timeChars? time).map String.ofList).getD Table.notAvailable := by
    unfold momentCell
    cases timeChars? time <;> rfl
  rw [cell, timeChars?, wholeSeconds?_eq finite, Option.bind_eq_bind, Option.bind_some,
    momentChars?_eq]
  split <;> rfl

theorem momentCell_eq_notAvailable_iff {time : Float} (finite : time.isFinite = true) :
    momentCell time = Table.notAvailable ↔ ¬ IsDated ⌊Binary64.toRat time⌋ := by
  rw [momentCell_eq finite]
  by_cases dated : IsDated ⌊Binary64.toRat time⌋
  · rw [if_pos dated]
    exact iff_of_false (momentText_ne_notAvailable _) (not_not_intro dated)
  · rw [if_neg dated]
    exact iff_of_true rfl dated

theorem exists_tells_momentCell (now : Int) {time : Float} (finite : time.isFinite = true)
    (given : momentCell time ≠ Table.notAvailable) : ∃ first last,
      TellsSecond now (momentCell time) ⌊Binary64.toRat time⌋ first last := by
  have dated := not_not.mp (mt (momentCell_eq_notAvailable_iff finite).mpr given)
  rw [momentCell_eq finite, if_pos dated]
  exact exists_tells now dated

/-- A printed time tells its second in the calendar, and there is none exactly outside the years
that dates are told in. -/
theorem momentCell_tells (now : Int) {time : Float} (finite : time.isFinite = true) :
    Date.IsCalendar Date.ofDayNumber ∧
    (momentCell time = Table.notAvailable ↔ ¬ IsDated ⌊Binary64.toRat time⌋) ∧
    (momentCell time ≠ Table.notAvailable →
      (∃ first last, TellsSecond now (momentCell time) ⌊Binary64.toRat time⌋ first last) ∧
      ∀ other : Float, other.isFinite = true →
        (momentCell other = momentCell time ↔
          ⌊Binary64.toRat other⌋ = ⌊Binary64.toRat time⌋)) := by
  refine ⟨Date.isCalendar_ofDayNumber, momentCell_eq_notAvailable_iff finite, fun given => ?_⟩
  obtain ⟨first, last, tells⟩ := exists_tells_momentCell now finite given
  refine ⟨⟨first, last, tells⟩, fun other otherFinite => ⟨fun same => ?_, fun same => ?_⟩⟩
  · rw [← same] at given
    obtain ⟨_, _, alsoTells⟩ := exists_tells_momentCell now otherFinite given
    rw [same] at alsoTells
    exact alsoTells.unique tells
  · rw [momentCell_eq finite, momentCell_eq otherFinite, same]

theorem momentCell_tells_negativeYear : (-62198755200.5 : Float).isFinite = true ∧
    momentCell (-62198755200.5) = "-0002-12-31 23:59:59" ∧
    (∃ first last, TellsSecond 0 "-0002-12-31 23:59:59" (-62198755201) first last) ∧
    momentCell (-62198755200.25) = "-0002-12-31 23:59:59" := by
  have finite : (-62198755200.5 : Float).isFinite = true := by decide +kernel
  have quarter : (-62198755200.25 : Float).isFinite = true := by decide +kernel
  have second : ⌊Binary64.toRat (-62198755200.5)⌋ = -62198755201 :=
    Option.some.inj ((Binary64.floor?_eq finite).symm.trans (by decide +kernel))
  have same : ⌊Binary64.toRat (-62198755200.25)⌋ = -62198755201 :=
    Option.some.inj ((Binary64.floor?_eq quarter).symm.trans (by decide +kernel))
  have text : momentCell (-62198755200.5) = "-0002-12-31 23:59:59" := by decide +kernel
  obtain ⟨tells, alike⟩ := (momentCell_tells 0 finite).2.2 (by rw [text]; decide)
  rw [text, second] at tells alike
  exact ⟨finite, text, tells, (alike _ quarter).mpr same⟩

end Listing

end HostTimeline
