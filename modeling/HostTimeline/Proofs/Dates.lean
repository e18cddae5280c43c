import HostTimeline.Calendar.Date
import Mathlib.Tactic.IntervalCases

/-!
The calendar.  The dates of the day numbers begin with 1970-01-01 and follow one another day by day
(`Date.isCalendar_ofDayNumber`).  Dates and day numbers determine each other
(`Date.ofDayNumber_dayNumber`, `Date.dayNumber_ofDayNumber`), and a year is over when the next one
begins (`Date.year_ofDayNumber_lt_iff`).
-/

namespace HostTimeline.Calendar

section Years

/-- The days before a year that is counted from March. -/
def daysBeforeYear (year : Int) : Int :=
  365 * year + year / 4 - year / 100 + year / 400

theorem daysBeforeYear_lt {year other : Int} (less : year < other) :
    daysBeforeYear year + 365 ≤ daysBeforeYear other := by
  unfold daysBeforeYear
  omega

/-- The leap day is the last one of a year that is counted from March. -/
theorem daysBeforeYear_succ (year : Int) : daysBeforeYear (year + 1) =
    daysBeforeYear year + if isLeap (year + 1) then 366 else 365 := by
  have leap : isLeap (year + 1) = true ↔
      (year + 1) % 4 = 0 ∧ ¬ (year + 1) % 100 = 0 ∨ (year + 1) % 400 = 0 := by
    simp [isLeap]
  unfold daysBeforeYear
  split
  next isLeap =>
    rw [leap] at isLeap
    omega
  next common =>
    rw [leap] at common
    omega

/-- The year of an era that a day of the era is in. -/
def yearOfDay (day : Int) : Int :=
  (day - day / 1460 + day / 36524 - day / 146096) / 365

theorem yearOfDay_le {day later : Int} (le : day ≤ later) : yearOfDay day ≤ yearOfDay later := by
  have cycles : day - day / 1460 ≤ later - later / 1460 := by omega
  have quarter (day : Int) : day / 146096 = day / 36524 / 4 := by omega
  have centuries : day / 36524 ≤ later / 36524 := Int.ediv_le_ediv (by decide) le
  unfold yearOfDay
  rw [quarter day, quarter later]
  refine Int.ediv_le_ediv (by decide) ?_
  generalize day / 36524 = century at *
  generalize later / 36524 = laterCentury at *
  omega

theorem yearOfDay_ends : ∀ year < 400, yearOfDay (daysBeforeYear (year : Nat)) = year ∧
    yearOfDay (daysBeforeYear ((year : Nat) + 1) - 1) = year := by
  decide +kernel

/-- Years of an era begin and end where the computed year changes. -/
theorem yearOfDay_eq {year day : Int} (nonneg : 0 ≤ year) (short : year < 400)
    (begun : daysBeforeYear year ≤ day) (ends : day < daysBeforeYear (year + 1)) :
    yearOfDay day = year := by
  obtain ⟨first, last⟩ := yearOfDay_ends year.toNat (by omega)
  rw [Int.toNat_of_nonneg nonneg] at first last
  have low := yearOfDay_le begun
  have high := yearOfDay_le (Int.le_sub_one_of_lt ends)
  omega

theorem exists_year {day : Int} (nonneg : 0 ≤ day) (within : day < daysPerEra) :
    ∃ year, 0 ≤ year ∧ year < 400 ∧ daysBeforeYear year ≤ day ∧
      day < daysBeforeYear (year + 1) := by
  have reach (bound : Nat) (below : day < daysBeforeYear bound) (few : bound ≤ 400) :
      ∃ year, 0 ≤ year ∧ year < 400 ∧ daysBeforeYear year ≤ day ∧
        day < daysBeforeYear (year + 1) := by
    induction bound with
    | zero =>
        have zero : daysBeforeYear (0 : Nat) = 0 := rfl
        omega
    | succ bound ih =>
        by_cases earlier : day < daysBeforeYear bound
        · exact ih earlier (by omega)
        · exact ⟨bound, by omega, by omega, by omega, by simpa using below⟩
  exact reach 400 within (Nat.le_refl _)

theorem yearOfDay_spec {day : Int} (nonneg : 0 ≤ day) (within : day < daysPerEra) :
    0 ≤ yearOfDay day ∧ yearOfDay day < 400 ∧ daysBeforeYear (yearOfDay day) ≤ day ∧
      day < daysBeforeYear (yearOfDay day + 1) := by
  obtain ⟨year, low, high, begun, ends⟩ := exists_year nonneg within
  rw [yearOfDay_eq low high begun ends]
  exact ⟨low, high, begun, ends⟩

/-- All eras have the same years. -/
theorem daysBeforeYear_era (era year : Int) :
    daysBeforeYear (year + era * 400) = daysBeforeYear year + era * daysPerEra := by
  unfold daysBeforeYear daysPerEra
  omega

end Years

section Months

/-- The days of a year before a month of it, both counted from March. -/
def daysBeforeMonth (month : Int) : Int :=
  (153 * month + 2) / 5

/-- The month of a day of a year, counted from March. -/
def monthOfDay (day : Int) : Int :=
  (5 * day + 2) / 153

/-- The length of a month of a year, both counted from March. -/
def lengthFromMarch (year month : Int) : Nat :=
  if month < 10 then monthLength year (month + 3).toNat
  else monthLength (year + 1) (month - 9).toNat

theorem daysBeforeMonth_succ (year : Int) {month : Int} (nonneg : 0 ≤ month) (short : month < 11) :
    daysBeforeMonth (month + 1) = daysBeforeMonth month + lengthFromMarch year month := by
  interval_cases month <;> simp [daysBeforeMonth, lengthFromMarch, monthLength]

theorem lengthFromMarch_february (year : Int) :
    lengthFromMarch year 11 = if isLeap (year + 1) then 29 else 28 :=
  rfl

/-- February is what is left of the year. -/
theorem daysBeforeYear_add_february (year : Int) : daysBeforeYear (year + 1) =
    daysBeforeYear year + daysBeforeMonth 11 + lengthFromMarch year 11 := by
  have before : daysBeforeMonth 11 = 337 := rfl
  rw [daysBeforeYear_succ, lengthFromMarch_february]
  split <;> omega

theorem daysBeforeMonth_add_length_le (year : Int) {month : Int} (nonneg : 0 ≤ month)
    (short : month < 12) :
    daysBeforeYear year + daysBeforeMonth month + lengthFromMarch year month ≤
      daysBeforeYear (year + 1) := by
  by_cases february : month = 11
  · rw [february, daysBeforeYear_add_february]
  · have within : daysBeforeMonth (month + 1) ≤ 365 := by
      unfold daysBeforeMonth
      omega
    have next := daysBeforeMonth_succ year nonneg (by omega)
    have longer := daysBeforeYear_lt (Int.lt_succ year)
    omega

theorem monthOfDay_eq {year month day : Int} (nonneg : 0 ≤ month) (short : month < 12)
    (begun : daysBeforeMonth month ≤ day)
    (ends : day < daysBeforeMonth month + lengthFromMarch year month) : monthOfDay day = month := by
  by_cases february : month = 11
  · have length : lengthFromMarch year 11 ≤ 29 := by
      rw [lengthFromMarch_february]
      split <;> omega
    subst february
    unfold daysBeforeMonth at begun ends
    unfold monthOfDay
    omega
  · rw [← daysBeforeMonth_succ year nonneg (by omega)] at ends
    unfold daysBeforeMonth at begun ends
    unfold monthOfDay
    omega

theorem monthOfDay_spec {year day : Int} (nonneg : 0 ≤ day)
    (short : daysBeforeYear year + day < daysBeforeYear (year + 1)) :
    0 ≤ monthOfDay day ∧ monthOfDay day < 12 ∧ daysBeforeMonth (monthOfDay day) ≤ day ∧
      day < daysBeforeMonth (monthOfDay day) + lengthFromMarch year (monthOfDay day) := by
  have bounded : day < 366 := by
    rw [daysBeforeYear_succ] at short
    split at short <;> omega
  have low : 0 ≤ monthOfDay day := by
    unfold monthOfDay
    omega
  have high : monthOfDay day < 12 := by
    unfold monthOfDay
    omega
  have begun : daysBeforeMonth (monthOfDay day) ≤ day := by
    unfold monthOfDay daysBeforeMonth
    omega
  refine ⟨low, high, begun, ?_⟩
  by_cases february : monthOfDay day = 11
  · rw [february]
    rw [daysBeforeYear_add_february] at short
    omega
  · rw [← daysBeforeMonth_succ year low (by omega)]
    unfold monthOfDay daysBeforeMonth
    omega

end Months

namespace Date

/-- A month of a year, and a day of that month. -/
structure IsProper (date : Date) : Prop where
  month_pos : 1 ≤ date.month
  month_le : date.month ≤ 12
  day_pos : 1 ≤ date.day
  day_le : date.day ≤ monthLength date.year date.month

theorem isValid_iff {date : Date} : date.isValid = true ↔
    (-262143 ≤ date.year ∧ date.year ≤ 262142) ∧ date.IsProper := by
  simp only [isValid, Bool.and_eq_true, decide_eq_true_iff]
  constructor
  · rintro ⟨⟨⟨⟨inRange, monthPos⟩, monthLe⟩, dayPos⟩, dayLe⟩
    exact ⟨inRange, monthPos, monthLe, dayPos, dayLe⟩
  · rintro ⟨inRange, monthPos, monthLe, dayPos, dayLe⟩
    exact ⟨⟨⟨⟨inRange, monthPos⟩, monthLe⟩, dayPos⟩, dayLe⟩

/-- The day after. -/
def next (date : Date) : Date :=
  if date.day < monthLength date.year date.month then { date with day := date.day + 1 }
  else if date.month < 12 then { date with month := date.month + 1, day := 1 }
  else { year := date.year + 1, month := 1, day := 1 }

def yearFromMarch (date : Date) : Int :=
  if date.month ≤ 2 then date.year - 1 else date.year

def monthFromMarch (date : Date) : Int :=
  if date.month ≤ 2 then date.month + 9 else date.month - 3

theorem dayNumber_eq (date : Date) : date.dayNumber = daysBeforeYear date.yearFromMarch +
    daysBeforeMonth date.monthFromMarch + date.day - 1 - daysToEpoch := by
  unfold dayNumber daysBeforeYear daysBeforeMonth
  change (date.yearFromMarch / 400) * daysPerEra + (date.yearFromMarch % 400 * 365 +
    date.yearFromMarch % 400 / 4 - date.yearFromMarch % 400 / 100 +
    ((153 * date.monthFromMarch + 2) / 5 + date.day - 1)) - daysToEpoch = _
  unfold daysPerEra
  omega

theorem lengthFromMarch_eq {date : Date} (proper : date.IsProper) :
    lengthFromMarch date.yearFromMarch date.monthFromMarch = monthLength date.year date.month := by
  have pos := proper.month_pos
  have le := proper.month_le
  unfold lengthFromMarch yearFromMarch monthFromMarch
  by_cases early : date.month ≤ 2
  · rw [if_pos early, if_pos early, if_neg (by omega)]
    congr 1 <;> omega
  · rw [if_neg early, if_neg early, if_pos (by omega)]
    congr 1
    omega

/-- The date of a day of a month of a year, both counted from March. -/
def fromMarch (year month day : Int) : Date :=
  { year := if month < 10 then year else year + 1
    month := (if month < 10 then month + 3 else month - 9).toNat
    day := day.toNat }

theorem isProper_fromMarch {year month day : Int} (nonneg : 0 ≤ month) (short : month < 12)
    (positive : 0 < day) (le : day ≤ lengthFromMarch year month) :
    (fromMarch year month day).IsProper := by
  unfold lengthFromMarch at le
  unfold fromMarch
  by_cases early : month < 10
  · rw [if_pos early] at le
    simp only [if_pos early]
    constructor <;> simp only <;> omega
  · rw [if_neg early] at le
    simp only [if_neg early]
    constructor <;> simp only <;> omega

theorem yearFromMarch_fromMarch (year day : Int) {month : Int} (nonneg : 0 ≤ month)
    (short : month < 12) : (fromMarch year month day).yearFromMarch = year ∧
      (fromMarch year month day).monthFromMarch = month := by
  unfold fromMarch yearFromMarch monthFromMarch
  by_cases early : month < 10
  · simp only [if_pos early]
    omega
  · simp only [if_neg early]
    omega

theorem fromMarch_eq {date : Date} (proper : date.IsProper) :
    fromMarch date.yearFromMarch date.monthFromMarch date.day = date := by
  have pos := proper.month_pos
  have le := proper.month_le
  obtain ⟨year, month, day⟩ := date
  unfold fromMarch yearFromMarch monthFromMarch
  simp only [Date.mk.injEq, Int.toNat_natCast, and_true] at *
  by_cases early : month ≤ 2
  · rw [if_pos early, if_pos early, if_neg (by omega), if_neg (by omega)]
    omega
  · rw [if_neg early, if_neg early, if_pos (by omega), if_pos (by omega)]
    omega

theorem dayNumber_fromMarch {year month day : Int} (nonneg : 0 ≤ month) (short : month < 12)
    (positive : 0 < day) : (fromMarch year month day).dayNumber =
      daysBeforeYear year + daysBeforeMonth month + day - 1 - daysToEpoch := by
  obtain ⟨years, months⟩ := yearFromMarch_fromMarch year day nonneg short
  have days : ((fromMarch year month day).day : Int) = day := Int.toNat_of_nonneg (by omega)
  rw [dayNumber_eq, years, months, days]

/-- A day of a month of a year that day number counts, the month and the year from March. -/
structure IsCounted (number year month day : Int) : Prop where
  month_nonneg : 0 ≤ month
  month_lt : month < 12
  day_pos : 0 < day
  day_le : day ≤ lengthFromMarch year month
  number_eq : number = daysBeforeYear year + daysBeforeMonth month + day - 1 - daysToEpoch

theorem IsCounted.year_le {number year month day other otherMonth otherDay : Int}
    (counted : IsCounted number year month day)
    (alsoCounted : IsCounted number other otherMonth otherDay) : year ≤ other := by
  obtain ⟨nonneg, short, positive, le, number⟩ := counted
  obtain ⟨otherNonneg, otherShort, otherPositive, otherLe, otherNumber⟩ := alsoCounted
  by_contra later
  have ends := daysBeforeMonth_add_length_le other otherNonneg otherShort
  have begun : 0 ≤ daysBeforeMonth month := by
    unfold daysBeforeMonth
    omega
  rcases Int.lt_or_eq_of_le (Int.not_le.mp later) with less | same
  · have apart := daysBeforeYear_lt less
    omega
  · subst same
    omega

/-- A day is counted in one way. -/
theorem IsCounted.unique {number year month day other otherMonth otherDay : Int}
    (counted : IsCounted number year month day)
    (alsoCounted : IsCounted number other otherMonth otherDay) :
    year = other ∧ month = otherMonth ∧ day = otherDay := by
  obtain rfl := Int.le_antisymm (counted.year_le alsoCounted) (alsoCounted.year_le counted)
  obtain ⟨nonneg, short, positive, le, rfl⟩ := counted
  obtain ⟨otherNonneg, otherShort, otherPositive, otherLe, same⟩ := alsoCounted
  have isMonth : monthOfDay (daysBeforeMonth month + day - 1) = month :=
    monthOfDay_eq nonneg short (by omega) (by omega : _ < _ + (lengthFromMarch year month : Int))
  have isOther : monthOfDay (daysBeforeMonth month + day - 1) = otherMonth :=
    monthOfDay_eq otherNonneg otherShort (by omega)
      (by omega : _ < _ + (lengthFromMarch year otherMonth : Int))
  obtain rfl := isMonth.symm.trans isOther
  exact ⟨rfl, rfl, by omega⟩

theorem IsProper.isCounted {date : Date} (proper : date.IsProper) :
    IsCounted date.dayNumber date.yearFromMarch date.monthFromMarch date.day where
  month_nonneg := by
    have pos := proper.month_pos
    unfold monthFromMarch
    split <;> omega
  month_lt := by
    have le := proper.month_le
    unfold monthFromMarch
    split <;> omega
  day_pos := Int.natCast_pos.mpr proper.day_pos
  day_le := by
    rw [lengthFromMarch_eq proper]
    exact Int.ofNat_le.mpr proper.day_le
  number_eq := date.dayNumber_eq

theorem exists_ofDayNumber (number : Int) : ∃ year month day,
    IsCounted number year month day ∧ ofDayNumber number = fromMarch year month day := by
  have nonneg : 0 ≤ (number + daysToEpoch) % daysPerEra := Int.emod_nonneg _ (by decide)
  have short : (number + daysToEpoch) % daysPerEra < daysPerEra := Int.emod_lt_of_pos _ (by decide)
  have whole := Int.emod_add_mul_ediv (number + daysToEpoch) daysPerEra
  obtain ⟨low, high, begun, ends⟩ := yearOfDay_spec nonneg short
  have years := daysBeforeYear_era ((number + daysToEpoch) / daysPerEra)
  simp only [ofDayNumber]
  generalize (number + daysToEpoch) / daysPerEra = era at *
  generalize (number + daysToEpoch) % daysPerEra = dayOfEra at *
  have yearRead : (dayOfEra - dayOfEra / 1460 + dayOfEra / 36524 - dayOfEra / 146096) / 365 =
    yearOfDay dayOfEra := rfl
  simp only [yearRead]
  generalize yearOfDay dayOfEra = yearOfEra at *
  have begins : 365 * yearOfEra + yearOfEra / 4 - yearOfEra / 100 = daysBeforeYear yearOfEra := by
    unfold daysBeforeYear
    omega
  have next := years (yearOfEra + 1)
  rw [Int.add_right_comm] at next
  have monthRead : (5 * (dayOfEra - daysBeforeYear yearOfEra) + 2) / 153 =
    monthOfDay (dayOfEra - daysBeforeYear yearOfEra) := rfl
  obtain ⟨monthLow, monthHigh, monthBegun, monthEnds⟩ := @monthOfDay_spec
    (yearOfEra + era * 400) (dayOfEra - daysBeforeYear yearOfEra) (by omega)
    (by rw [years, next]; omega)
  simp only [begins, monthRead]
  generalize monthOfDay (dayOfEra - daysBeforeYear yearOfEra) = month at *
  refine ⟨yearOfEra + era * 400, month,
    dayOfEra - daysBeforeYear yearOfEra - daysBeforeMonth month + 1,
    ⟨monthLow, monthHigh, by omega, by omega, ?_⟩, ?_⟩
  · rw [years, Int.mul_comm era]
    omega
  · unfold fromMarch daysBeforeMonth
    by_cases early : month < 10
    · simp only [if_pos early, Date.mk.injEq, and_self, and_true]
      rw [if_neg (by omega)]
    · simp only [if_neg early, Date.mk.injEq, and_self, and_true]
      rw [if_pos (by omega)]

theorem isProper_ofDayNumber (number : Int) : (ofDayNumber number).IsProper := by
  obtain ⟨year, month, day, counted, date⟩ := exists_ofDayNumber number
  rw [date]
  exact isProper_fromMarch counted.month_nonneg counted.month_lt counted.day_pos counted.day_le

theorem dayNumber_ofDayNumber (number : Int) : (ofDayNumber number).dayNumber = number := by
  obtain ⟨year, month, day, counted, date⟩ := exists_ofDayNumber number
  rw [date, dayNumber_fromMarch counted.month_nonneg counted.month_lt counted.day_pos]
  exact counted.number_eq.symm

theorem ofDayNumber_dayNumber {date : Date} (proper : date.IsProper) :
    ofDayNumber date.dayNumber = date := by
  obtain ⟨year, month, day, counted, same⟩ := exists_ofDayNumber date.dayNumber
  obtain ⟨rfl, rfl, rfl⟩ := counted.unique proper.isCounted
  rw [same, fromMarch_eq proper]

theorem monthLength_pos (year : Int) (month : Nat) : 0 < monthLength year month := by
  unfold monthLength
  split <;> split <;> decide

theorem isProper_next {date : Date} (proper : date.IsProper) : date.next.IsProper := by
  obtain ⟨pos, le, dayPos, dayLe⟩ := proper
  unfold next
  split
  next within => exact ⟨pos, le, Nat.succ_pos _, within⟩
  · split
    next early => exact ⟨Nat.succ_pos _, early, Nat.le_refl 1, monthLength_pos _ _⟩
    · exact ⟨Nat.le_refl 1, Nat.le_of_ble_eq_true rfl, Nat.le_refl 1, monthLength_pos _ _⟩

theorem dayNumber_first (year : Int) (month : Nat) : dayNumber { year, month, day := 1 } =
    daysBeforeYear (if month ≤ 2 then year - 1 else year) +
      daysBeforeMonth (if month ≤ 2 then month + 9 else month - 3) - daysToEpoch := by
  rw [dayNumber_eq]
  unfold yearFromMarch monthFromMarch
  simp only
  omega

theorem dayNumber_eq_first_add (date : Date) :
    date.dayNumber = dayNumber { date with day := 1 } + date.day - 1 := by
  rw [dayNumber_eq, dayNumber_first]
  unfold yearFromMarch monthFromMarch
  omega

/-- The leap day belongs to February, after which the years that are counted from March begin. -/
theorem dayNumber_march (year : Int) : dayNumber { year, month := 3, day := 1 } =
    dayNumber { year, month := 2, day := 1 } + monthLength year 2 := by
  have years := daysBeforeYear_add_february (year - 1)
  have length := lengthFromMarch_february (year - 1)
  rw [Int.sub_add_cancel] at years length
  have march : daysBeforeMonth 0 = 0 := rfl
  have february : monthLength year 2 = lengthFromMarch (year - 1) 11 := length.symm
  rw [dayNumber_first, dayNumber_first, february]
  change daysBeforeYear year + daysBeforeMonth 0 - _ =
    daysBeforeYear (year - 1) + daysBeforeMonth 11 - _ + _
  omega

theorem dayNumber_january (year : Int) : dayNumber { year := year + 1, month := 1, day := 1 } =
    dayNumber { year, month := 12, day := 1 } + monthLength year 12 := by
  have december := @daysBeforeMonth_succ year 9 (by decide) (by decide)
  have length : monthLength year 12 = lengthFromMarch year 9 := rfl
  rw [dayNumber_first, dayNumber_first, length]
  change daysBeforeYear (year + 1 - 1) + daysBeforeMonth (9 + 1) - _ =
    daysBeforeYear year + daysBeforeMonth 9 - _ + _
  rw [december, Int.add_sub_cancel]
  omega

theorem dayNumber_nextMonth (year : Int) {month : Nat} (pos : 1 ≤ month) (early : month < 12) :
    dayNumber { year, month := month + 1, day := 1 } =
      dayNumber { year, month, day := 1 } + monthLength year month := by
  by_cases february : month = 2
  · rw [february]
    exact dayNumber_march year
  · have proper : IsProper { year, month, day := 1 } :=
      ⟨pos, Nat.le_of_lt early, Nat.le_refl 1, monthLength_pos year month⟩
    have length := lengthFromMarch_eq proper
    have months := daysBeforeMonth_succ (yearFromMarch { year, month, day := 1 })
      proper.isCounted.month_nonneg (by unfold monthFromMarch; split <;> simp only at * <;> omega)
    have sameYear : yearFromMarch { year, month := month + 1, day := 1 } =
        yearFromMarch { year, month, day := 1 } := by
      unfold yearFromMarch
      split <;> split <;> simp only at * <;> omega
    have nextMonth : monthFromMarch { year, month := month + 1, day := 1 } =
        monthFromMarch { year, month, day := 1 } + 1 := by
      unfold monthFromMarch
      split <;> split <;> simp only at * <;> omega
    rw [dayNumber_eq, dayNumber_eq, sameYear, nextMonth, months, length]
    simp only
    omega

/-- After the last day of a month comes the first of the next one. -/
theorem dayNumber_next {date : Date} (proper : date.IsProper) :
    date.next.dayNumber = date.dayNumber + 1 := by
  rw [date.dayNumber_eq_first_add]
  unfold next
  split
  next within =>
    rw [dayNumber_eq_first_add]
    simp only
    omega
  next last =>
    have lastDay : date.day = monthLength date.year date.month :=
      Nat.le_antisymm proper.day_le (Nat.not_lt.mp last)
    rw [lastDay, Int.sub_add_cancel]
    split
    next early => exact dayNumber_nextMonth date.year proper.month_pos early
    next late =>
      have december : date.month = 12 := Nat.le_antisymm proper.month_le (Nat.not_lt.mp late)
      rw [december]
      exact dayNumber_january date.year

theorem dayNumber_newYear (year : Int) : dayNumber { year, month := 1, day := 1 } =
    daysBeforeYear (year - 1) + daysBeforeMonth 10 - daysToEpoch :=
  dayNumber_first year 1

/-- The days of a year are numbered from its first one, and before those of the next year. -/
theorem dayNumber_of_year {date : Date} (proper : date.IsProper) :
    dayNumber { year := date.year, month := 1, day := 1 } ≤ date.dayNumber ∧
      date.dayNumber < dayNumber { year := date.year + 1, month := 1, day := 1 } := by
  obtain ⟨nonneg, short, positive, le, number⟩ := proper.isCounted
  have pos := proper.month_pos
  have last := proper.month_le
  have ends := daysBeforeMonth_add_length_le date.yearFromMarch nonneg short
  have january : daysBeforeMonth 10 = 306 := rfl
  rw [number, dayNumber_newYear, dayNumber_newYear, Int.add_sub_cancel]
  by_cases early : date.month ≤ 2
  · have year : date.yearFromMarch = date.year - 1 := if_pos early
    have month : date.monthFromMarch = date.month + 9 := if_pos early
    have begun : daysBeforeMonth 10 ≤ daysBeforeMonth date.monthFromMarch := by
      unfold daysBeforeMonth
      omega
    rw [year] at ends le ⊢
    rw [Int.sub_add_cancel] at ends
    omega
  · have year : date.yearFromMarch = date.year := if_neg early
    have month : date.monthFromMarch = date.month - 3 := if_neg early
    have within := daysBeforeMonth_succ date.yearFromMarch nonneg (by omega)
    have lastMonth : daysBeforeMonth (date.monthFromMarch + 1) ≤ daysBeforeMonth 10 := by
      unfold daysBeforeMonth
      omega
    have begun : 0 ≤ daysBeforeMonth date.monthFromMarch := by
      unfold daysBeforeMonth
      omega
    have before : daysBeforeYear (date.year - 1) + 365 ≤ daysBeforeYear date.year :=
      daysBeforeYear_lt (by omega)
    rw [year] at le within ⊢
    omega

theorem dayNumber_newYear_lt {year other : Int} (less : year < other) :
    dayNumber { year, month := 1, day := 1 } <
      dayNumber { year := other, month := 1, day := 1 } := by
  have apart := daysBeforeYear_lt (Int.sub_lt_sub_right less 1)
  rw [dayNumber_newYear, dayNumber_newYear]
  omega

/-- A year is over when the next one begins. -/
theorem year_ofDayNumber_lt_iff (number year : Int) :
    (ofDayNumber number).year < year ↔ number < dayNumber { year, month := 1, day := 1 } := by
  obtain ⟨begun, ends⟩ := dayNumber_of_year (isProper_ofDayNumber number)
  rw [dayNumber_ofDayNumber] at begun ends
  constructor
  · intro less
    rcases Int.lt_or_eq_of_le (Int.add_one_le_of_lt less) with later | next
    · exact Int.lt_trans ends (dayNumber_newYear_lt later)
    · rwa [next] at ends
  · intro less
    by_contra late
    rcases Int.lt_or_eq_of_le (Int.not_lt.mp late) with earlier | same
    · have := dayNumber_newYear_lt earlier
      omega
    · rw [same] at less
      omega

/-- Dates of day numbers that begin with 1970-01-01 and follow one another day by day. -/
structure IsCalendar (dateOf : Int → Date) : Prop where
  epoch : dateOf 0 = { year := 1970, month := 1, day := 1 }
  next : ∀ number, dateOf (number + 1) = (dateOf number).next

theorem isCalendar_ofDayNumber : IsCalendar ofDayNumber where
  epoch := rfl
  next number := by
    have proper := isProper_ofDayNumber number
    have next := dayNumber_next proper
    rw [dayNumber_ofDayNumber] at next
    rw [← next, ofDayNumber_dayNumber (isProper_next proper)]

example : (ofDayNumber 11016).next = { year := 2000, month := 3, day := 1 } := rfl

end Date

end HostTimeline.Calendar
