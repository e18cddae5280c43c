import HostTimeline.Proofs.Dates
import HostTimeline.Proofs.IntegerText
import HostTimeline.TimeArgument

/-!
Printed dates.  A printed date has the form of no other time argument, whatever the sign and the
number of digits of its year (`read?_dateChars`, `readDays?_dateChars`), and is read back as the
date it was printed for (`TimeArgument.read_dateChars`).
-/

namespace HostTimeline

namespace Calendar

open Text (IsNumeral)

section Numbers

theorem mem_padded {width value : Nat} {char : Char} (member : char ∈ padded width value) :
    char.isDigit = true := by
  unfold padded List.leftpad at member
  rcases List.mem_append.mp member with zeros | digits
  · obtain rfl := List.eq_of_mem_replicate zeros
    rfl
  · exact Nat.isDigit_of_mem_toDigits (by decide) (Nat.le_refl 10) digits

theorem isNumeral_padded (width value : Nat) : IsNumeral (padded width value) where
  nonempty empty := Nat.toDigits_ne_nil (List.append_eq_nil_iff.mp empty).2
  digit _ member := mem_padded member

theorem valueOf_padded (width value : Nat) : Decimal.valueOf (padded width value) = value := by
  have zeros (count : Nat) (digits : List Char) :
      Decimal.valueOf (List.replicate count '0' ++ digits) = Decimal.valueOf digits := by
    induction count with
    | zero => rfl
    | succ count ih => exact ih
  exact (zeros _ _).trans (Nat.ofDigitChars_toDigits (by decide) (Nat.le_refl 10))

theorem length_padded {width value : Nat} (wide : 0 < width) (fits : value < 10 ^ width) :
    (padded width value).length = width := by
  have short := (Nat.length_toDigits_le_iff (by decide) wide).mpr fits
  exact List.length_leftpad.trans (Nat.max_eq_left short)

variable {digits rest : List Char}

theorem dash_ends (rest : List Char) : ∀ char ∈ ('-' :: rest).head?, char.isDigit = false := by
  rintro char ⟨⟩
  rfl

theorem takeWhile_numeral (numeral : IsNumeral digits)
    (ends : ∀ char ∈ rest.head?, char.isDigit = false) :
    (digits ++ rest).takeWhile Char.isDigit = digits ∧
      (digits ++ rest).dropWhile Char.isDigit = rest := by
  rw [List.takeWhile_append_of_pos numeral.digit, List.dropWhile_append_of_pos numeral.digit]
  cases rest with
  | nil => exact ⟨List.append_nil digits, rfl⟩
  | cons char rest =>
      have stops : ¬ char.isDigit = true := by simp [ends char rfl]
      rw [List.takeWhile_cons_of_neg stops, List.dropWhile_cons_of_neg stops]
      exact ⟨List.append_nil digits, rfl⟩

/-- A numeral is read up to what follows it. -/
theorem readNumber_numeral {limit : Option Nat} (numeral : IsNumeral digits)
    (ends : ∀ char ∈ rest.head?, char.isDigit = false)
    (short : ∀ most ∈ limit, digits.length ≤ most) :
    readNumber limit (digits ++ rest) = .ok (Decimal.valueOf digits, rest) := by
  have whole : digits.take (limit.getD (digits ++ rest).length) = digits := by
    refine List.take_of_length_le ?_
    cases limit with
    | none => simp
    | some most => exact short most rfl
  unfold readNumber
  simp only [(takeWhile_numeral numeral ends).1, whole]
  rw [if_neg (by simp [numeral.nonempty]), if_neg (by simp [numeral.nonempty]), List.drop_left]

theorem trimStart_cons {char : Char} (solid : Text.isBlank char = false) (rest : List Char) :
    Text.trimStart (char :: rest) = char :: rest :=
  List.dropWhile_cons_of_neg (by simp [solid])

/-- No white space is skipped before a numeral. -/
theorem trimStart_numeral (numeral : IsNumeral digits) (rest : List Char) :
    Text.trimStart (digits ++ rest) = digits ++ rest := by
  obtain ⟨first, others, rfl⟩ := List.exists_cons_of_ne_nil numeral.nonempty
  exact trimStart_cons (Text.not_isBlank_of_isDigit (Text.isNumeral_cons numeral)) _

theorem readPart_padded {greatest value : Nat} (positive : 1 ≤ value) (le : value ≤ greatest)
    (bounded : greatest < 100) (ends : ∀ char ∈ rest.head?, char.isDigit = false) :
    readPart greatest (padded 2 value ++ rest) = .ok (value, rest) := by
  have numeral := isNumeral_padded 2 value
  have length : (padded 2 value).length = 2 :=
    length_padded (by decide) (Nat.lt_of_le_of_lt le bounded)
  have read : readNumber (some 2) (padded 2 value ++ rest) = .ok (value, rest) := by
    rw [readNumber_numeral numeral ends (by simp [length]), valueOf_padded]
  unfold readPart
  rw [trimStart_numeral numeral, read]
  exact if_pos ⟨positive, le⟩

theorem not_sign_of_numeral (numeral : IsNumeral digits) (after : List Char) :
    digits ++ rest ≠ '-' :: after ∧ digits ++ rest ≠ '+' :: after := by
  obtain ⟨first, others, rfl⟩ := List.exists_cons_of_ne_nil numeral.nonempty
  have digit := Text.isNumeral_cons numeral
  constructor <;>
  · intro same
    rw [(List.cons_eq_cons.mp same).1] at digit
    exact absurd digit (by decide)

/-- The dash after a year ends it, also where its digits are not limited. -/
theorem readYear_yearChars {year : Int} (least : leastYear ≤ year) (greatest : year ≤ greatestYear)
    (rest : List Char) : readYear (yearChars year ++ '-' :: rest) = .ok (year, '-' :: rest) := by
  have numeral := isNumeral_padded 4 year.natAbs
  have read {limit : Option Nat} (short : ∀ most ∈ limit, (padded 4 year.natAbs).length ≤ most) :
      readNumber limit (padded 4 year.natAbs ++ '-' :: rest) = .ok (year.natAbs, '-' :: rest) := by
    rw [readNumber_numeral numeral (dash_ends rest) short, valueOf_padded]
  have inRange {value : Int} (same : value = year) :
      (if leastYear ≤ value ∧ value ≤ greatestYear then .ok (value, '-' :: rest)
        else .error .outOfRange : Except DateError (Int × List Char)) =
        .ok (year, '-' :: rest) := by
    rw [same]
    exact if_pos ⟨least, greatest⟩
  unfold readYear yearChars
  by_cases negative : year < 0
  · rw [if_pos negative]
    simp only [List.cons_append, List.nil_append]
    rw [trimStart_cons rfl]
    simp only [@read none (by simp)]
    exact inRange (by omega)
  · rw [if_neg negative]
    by_cases long : 9999 < year
    · rw [if_pos long]
      simp only [List.cons_append, List.nil_append]
      rw [trimStart_cons rfl]
      simp only [@read none (by simp)]
      exact inRange (by omega)
    · rw [if_neg long]
      simp only [List.nil_append]
      rw [trimStart_numeral numeral]
      split
      next minus => exact absurd minus (not_sign_of_numeral numeral _).1
      next plus => exact absurd plus (not_sign_of_numeral numeral _).2
      next =>
        have length : (padded 4 year.natAbs).length = 4 := length_padded (by decide) (by omega)
        rw [read (by simp [length])]
        exact inRange (by omega)

end Numbers

theorem dateChars_eq (date : Date) : dateChars date = yearChars date.year ++
    '-' :: (padded 2 date.month ++ '-' :: padded 2 date.day) := by
  rw [dateChars, List.append_assoc, List.cons_append]

/-- A date is read back as it was printed. -/
theorem readDate_dateChars {date : Date} (valid : date.isValid = true) :
    readDate (dateChars date) = .ok date := by
  obtain ⟨⟨least, greatest⟩, monthPos, monthLe, dayPos, dayLe⟩ := Date.isValid_iff.mp valid
  have dayBound : date.day ≤ 31 := by
    refine Nat.le_trans dayLe ?_
    unfold monthLength
    split_ifs <;> decide
  have year := readYear_yearChars (by unfold leastYear; omega : leastYear ≤ date.year)
    (by unfold greatestYear; omega) (padded 2 date.month ++ '-' :: padded 2 date.day)
  have month := readPart_padded monthPos monthLe (by decide) (dash_ends (padded 2 date.day))
  have day : readPart 31 (padded 2 date.day ++ []) = .ok (date.day, []) :=
    readPart_padded dayPos dayBound (by decide) (by simp)
  rw [List.append_nil] at day
  unfold readDate
  rw [dateChars_eq, year]
  change (readPart 12 (padded 2 date.month ++ '-' :: padded 2 date.day) >>= _) = _
  rw [month]
  change (readPart 31 (padded 2 date.day) >>= _) = _
  rw [day]
  exact if_pos valid

theorem mem_dateChars {date : Date} {char : Char} (member : char ∈ dateChars date) :
    char.isDigit = true ∨ char = '-' ∨ char = '+' := by
  rw [dateChars_eq, List.mem_append] at member
  rcases member with year | rest
  · unfold yearChars at year
    rcases List.mem_append.mp year with sign | digits
    · split_ifs at sign
      · exact .inr (.inl (List.mem_singleton.mp sign))
      · exact .inr (.inr (List.mem_singleton.mp sign))
      · cases sign
    · exact .inl (mem_padded digits)
  · rcases List.mem_cons.mp rest with dash | rest
    · exact .inr (.inl dash)
    · rcases List.mem_append.mp rest with month | rest
      · exact .inl (mem_padded month)
      · rcases List.mem_cons.mp rest with dash | day
        · exact .inr (.inl dash)
        · exact .inl (mem_padded day)

end Calendar

section Forms

open Calendar

/-- Digits up to a dash are not a number. -/
theorem Binary64.readUnsigned?_dash {digits : List Char} (numeral : Text.IsNumeral digits)
    (rest : List Char) : readUnsigned? (digits ++ '-' :: rest) = none := by
  have noWord {word : String} (letters : '-' ∉ word.toList) :
      (digits ++ '-' :: rest).map Char.toLower ≠ word.toList := by
    intro same
    have dash : Char.toLower '-' ∈ (digits ++ '-' :: rest).map Char.toLower :=
      List.mem_map_of_mem (List.mem_append_right _ List.mem_cons_self)
    rw [same] at dash
    exact letters dash
  obtain ⟨whole, after⟩ := takeWhile_numeral numeral (dash_ends rest)
  have magnitude : readMagnitude? (digits ++ '-' :: rest) = none := by
    unfold readMagnitude?
    simp only [whole, after]
    rw [if_neg (by simp [numeral.nonempty])]
    rfl
  unfold readUnsigned?
  have infinite : ¬ ((digits ++ '-' :: rest).map Char.toLower = "inf".toList ||
      (digits ++ '-' :: rest).map Char.toLower = "infinity".toList) = true := by
    rw [Bool.or_eq_true, decide_eq_true_iff, decide_eq_true_iff]
    exact not_or.mpr ⟨noWord (by decide), noWord (by decide)⟩
  simp only
  rw [if_neg infinite, if_neg (noWord (by decide)), magnitude]

/-- The dash after the year keeps a date from being a number. -/
theorem Binary64.read?_dateChars (date : Date) : Binary64.read? (dateChars date) = none := by
  have numeral := isNumeral_padded 4 date.year.natAbs
  have unsigned := readUnsigned?_dash numeral (padded 2 date.month ++ '-' :: padded 2 date.day)
  rw [dateChars_eq]
  unfold yearChars
  split_ifs
  · exact congrArg (Option.map Neg.neg) unsigned
  · exact unsigned
  · simp only [List.nil_append]
    unfold read?
    split
    next plus => exact absurd plus (not_sign_of_numeral numeral _).2
    next minus => exact absurd minus (not_sign_of_numeral numeral _).1
    next => exact unsigned

/-- A date ends with a digit. -/
theorem TimeArgument.readDays?_dateChars (date : Date) : readDays? (dateChars date) = none := by
  have numeral := isNumeral_padded 2 date.day
  have isLast := List.getLast?_eq_some_getLast numeral.nonempty
  have digit := numeral.digit _ (List.getLast_mem numeral.nonempty)
  have ends : (dateChars date).getLast? = some ((padded 2 date.day).getLast numeral.nonempty) := by
    rw [dateChars_eq]
    simp [List.getLast?_append, List.getLast?_cons, isLast]
  unfold readDays?
  rw [ends]
  split
  next days =>
    rw [Option.some.inj days] at digit
    cases digit
  next weeks =>
    rw [Option.some.inj weeks] at digit
    cases digit
  next => rfl

/-- A printed date is read as the first or the last second of its day. -/
theorem TimeArgument.read_dateChars (now : Int) (edge : DayEdge) {date : Date}
    (valid : date.isValid = true) : TimeArgument.read now edge (dateChars date) =
      .ok (Float.ofInt (date.dayNumber * secondsPerDay + edge.second)) := by
  unfold read
  rw [Binary64.read?_dateChars, readDays?_dateChars]
  unfold readDate
  simp only [readDate_dateChars valid]

end Forms

end HostTimeline
