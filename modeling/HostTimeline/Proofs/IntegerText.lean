import HostTimeline.Document.Decoding
import HostTimeline.Proofs.Except
import Mathlib.Data.List.TakeWhile

/-!
Integers in text.  The reader accepts an optional sign and decimal digits, and no other text, and
gives the integer they denote if it fits 64 bits (`Text.readInteger_ok_iff`); white space around
the text is passed over (`Decoding.integerIn?_eq_some_iff`).
-/

namespace HostTimeline

namespace Text

/-- At least one decimal digit, and nothing else. -/
structure IsNumeral (digits : List Char) : Prop where
  nonempty : digits ≠ []
  digit : ∀ digit ∈ digits, digit.isDigit = true

/-- The text of an integer: decimal digits, with or without a sign. -/
inductive IsInteger : List Char → Int → Prop where
  | plain {digits : List Char} (numeral : IsNumeral digits) :
      IsInteger digits (Decimal.valueOf digits)
  | positive {digits : List Char} (numeral : IsNumeral digits) :
      IsInteger ('+' :: digits) (Decimal.valueOf digits)
  | negative {digits : List Char} (numeral : IsNumeral digits) :
      IsInteger ('-' :: digits) (-(Decimal.valueOf digits : Int))

/-- The text of an integer, with white space around it or none. -/
def HoldsInteger (text : List Char) (value : Int) : Prop :=
  ∃ ahead numeral behind, text = ahead ++ (numeral ++ behind) ∧ IsInteger numeral value ∧
    (∀ char ∈ ahead, isBlank char = true) ∧ ∀ char ∈ behind, isBlank char = true

/-- An integer that fits 64 bits. -/
def Fits (value : Int) : Prop :=
  leastInteger ≤ value ∧ value ≤ greatestInteger

/-- The greatest magnitude of an integer of that sign. -/
def magnitudeLimit (negative : Bool) : Nat :=
  if negative then 9223372036854775808 else 9223372036854775807

/-- The number that more digits make of the number that the digits before them denote. -/
def continued (magnitude : Nat) (digits : List Char) : Nat :=
  digits.foldl (fun value digit => 10 * value + Decimal.digitValue digit) magnitude

theorem fits_signed_iff {negative : Bool} {magnitude : Nat} :
    Fits (Binary64.signed negative magnitude) ↔ magnitude ≤ magnitudeLimit negative := by
  unfold Fits leastInteger greatestInteger Binary64.signed magnitudeLimit
  cases negative <;> simp only [Bool.false_eq_true, if_false, if_true] <;> omega

theorem le_continued (magnitude : Nat) (digits : List Char) :
    magnitude ≤ continued magnitude digits := by
  induction digits generalizing magnitude with
  | nil => exact Nat.le_refl _
  | cons digit rest ih =>
      have grown : magnitude ≤ 10 * magnitude + Decimal.digitValue digit := by omega
      exact Nat.le_trans grown (ih _)

/-- Reading one more digit: it has to be one, and the number has to fit with it. -/
theorem readDigits_cons (negative : Bool) (magnitude : Nat) (digit : Char) (rest : List Char) :
    readDigits negative (Binary64.signed negative magnitude) (digit :: rest) =
      if digit.isDigit then
        if 10 * magnitude + Decimal.digitValue digit ≤ magnitudeLimit negative then
          readDigits negative
            (Binary64.signed negative (10 * magnitude + Decimal.digitValue digit)) rest
        else .error (if negative then .tooSmall else .tooLarge)
      else .error .invalidDigit := by
  have next : (if negative then
        10 * Binary64.signed negative magnitude - (Decimal.digitValue digit : Int)
      else 10 * Binary64.signed negative magnitude + (Decimal.digitValue digit : Int)) =
      Binary64.signed negative (10 * magnitude + Decimal.digitValue digit) := by
    cases negative <;> simp only [Binary64.signed] <;> grind
  simp only [readDigits, next]
  generalize 10 * magnitude + Decimal.digitValue digit = extended
  unfold Binary64.signed magnitudeLimit greatestInteger leastInteger
  cases negative
  · simp only [Bool.false_eq_true, if_false]
    split_ifs <;> first | rfl | omega
  · simp only [if_true]
    split_ifs <;> first | rfl | omega

/-- A digit that no longer fits keeps the whole number from fitting. -/
theorem readDigits_ok_iff {negative : Bool} {magnitude : Nat} {digits : List Char} {value : Int}
    (bounded : magnitude ≤ magnitudeLimit negative) :
    readDigits negative (Binary64.signed negative magnitude) digits = .ok value ↔
      (∀ digit ∈ digits, digit.isDigit = true) ∧
        continued magnitude digits ≤ magnitudeLimit negative ∧
        Binary64.signed negative (continued magnitude digits) = value := by
  induction digits generalizing magnitude with
  | nil =>
      have read : readDigits negative (Binary64.signed negative magnitude) [] =
          .ok (Binary64.signed negative magnitude) := by rw [readDigits]
      simp [read, continued, bounded]
  | cons digit rest ih =>
      have least := le_continued (10 * magnitude + Decimal.digitValue digit) rest
      have extended : continued magnitude (digit :: rest) =
          continued (10 * magnitude + Decimal.digitValue digit) rest := rfl
      rw [readDigits_cons, extended, List.forall_mem_cons]
      by_cases isDigit : digit.isDigit = true
      · by_cases fits : 10 * magnitude + Decimal.digitValue digit ≤ magnitudeLimit negative
        · rw [if_pos isDigit, if_pos fits, ih fits]
          simp [isDigit]
        · rw [if_pos isDigit, if_neg fits]
          refine ⟨fun read => (nomatch read), fun read => ?_⟩
          exact absurd (Nat.le_trans least read.2.1) fits
      · rw [if_neg isDigit]
        exact ⟨fun read => (nomatch read), fun read => absurd read.1.1 isDigit⟩

/-- Digits are read as the number they denote, with the sign that stood before them. -/
theorem readDigits_numeral_iff {negative : Bool} {digits : List Char} {value : Int} :
    readDigits negative 0 digits = .ok value ↔
      ((∀ digit ∈ digits, digit.isDigit = true) ∧
        Binary64.signed negative (Decimal.valueOf digits) = value) ∧ Fits value := by
  have zero : Binary64.signed negative 0 = 0 := by cases negative <;> rfl
  have read : readDigits negative (Binary64.signed negative 0) digits = .ok value ↔ _ :=
    readDigits_ok_iff (Nat.zero_le _)
  rw [zero] at read
  rw [read, and_assoc]
  refine and_congr_right fun _ => ?_
  constructor
  · rintro ⟨bounded, rfl⟩
    exact ⟨rfl, fits_signed_iff.mpr bounded⟩
  · rintro ⟨rfl, fits⟩
    exact ⟨fits_signed_iff.mp fits, rfl⟩

theorem isNumeral_cons {char : Char} {digits : List Char} (numeral : IsNumeral (char :: digits)) :
    char.isDigit = true :=
  numeral.digit char List.mem_cons_self

theorem isInteger_plus_iff {digits : List Char} {value : Int} :
    IsInteger ('+' :: digits) value ↔ IsNumeral digits ∧ (Decimal.valueOf digits : Int) = value := by
  constructor
  · intro isInteger
    cases isInteger with
    | plain numeral => exact absurd (isNumeral_cons numeral) (by decide)
    | positive numeral => exact ⟨numeral, rfl⟩
  · rintro ⟨numeral, rfl⟩
    exact .positive numeral

theorem isInteger_minus_iff {digits : List Char} {value : Int} :
    IsInteger ('-' :: digits) value ↔
      IsNumeral digits ∧ -(Decimal.valueOf digits : Int) = value := by
  constructor
  · intro isInteger
    cases isInteger with
    | plain numeral => exact absurd (isNumeral_cons numeral) (by decide)
    | negative numeral => exact ⟨numeral, rfl⟩
  · rintro ⟨numeral, rfl⟩
    exact .negative numeral

theorem isInteger_plain_iff {text : List Char} {value : Int}
    (noPlus : ∀ digits, text ≠ '+' :: digits) (noMinus : ∀ digits, text ≠ '-' :: digits) :
    IsInteger text value ↔ IsNumeral text ∧ (Decimal.valueOf text : Int) = value := by
  constructor
  · intro isInteger
    cases isInteger with
    | plain numeral => exact ⟨numeral, rfl⟩
    | positive _ => exact absurd rfl (noPlus _)
    | negative _ => exact absurd rfl (noMinus _)
  · rintro ⟨numeral, rfl⟩
    exact .plain numeral

theorem readInteger_ok_iff {text : List Char} {value : Int} :
    readInteger text = .ok value ↔ IsInteger text value ∧ Fits value := by
  have numeral_iff {digits : List Char} (nonempty : digits ≠ []) :
      IsNumeral digits ↔ ∀ digit ∈ digits, digit.isDigit = true :=
    ⟨IsNumeral.digit, fun digit => ⟨nonempty, digit⟩⟩
  unfold readInteger
  split
  next =>
    rw [isInteger_plain_iff (by simp) (by simp)]
    exact ⟨fun read => (nomatch read), fun both => absurd rfl both.1.1.nonempty⟩
  next =>
    rw [isInteger_plus_iff]
    exact ⟨fun read => (nomatch read), fun both => absurd rfl both.1.1.nonempty⟩
  next =>
    rw [isInteger_minus_iff]
    exact ⟨fun read => (nomatch read), fun both => absurd rfl both.1.1.nonempty⟩
  next digits nonempty =>
    rw [readDigits_numeral_iff, isInteger_plus_iff, numeral_iff (by simpa using nonempty)]
    rfl
  next digits nonempty =>
    rw [readDigits_numeral_iff, isInteger_minus_iff, numeral_iff (by simpa using nonempty)]
    rfl
  next nonempty _ _ noPlus noMinus =>
    rw [readDigits_numeral_iff, isInteger_plain_iff noPlus noMinus, numeral_iff nonempty]
    rfl

theorem not_isBlank_of_isDigit {char : Char} (digit : char.isDigit = true) :
    isBlank char = false := by
  obtain ⟨above, below⟩ := Char.isDigit_iff_toNat.mp digit
  change 48 ≤ char.toNat at above
  change char.toNat ≤ 57 at below
  simp only [isBlank, blankRanges, List.any_cons, List.any_nil, Bool.or_false, Bool.or_eq_false_iff,
    Bool.and_eq_false_iff, decide_eq_false_iff_not]
  omega

theorem not_isBlank_of_isInteger {text : List Char} {value : Int} (isInteger : IsInteger text value) :
    ∀ char ∈ text, isBlank char = false := by
  cases isInteger with
  | plain numeral => exact fun char member => not_isBlank_of_isDigit (numeral.digit char member)
  | positive numeral =>
      exact List.forall_mem_cons.mpr
        ⟨rfl, fun char member => not_isBlank_of_isDigit (numeral.digit char member)⟩
  | negative numeral =>
      exact List.forall_mem_cons.mpr
        ⟨rfl, fun char member => not_isBlank_of_isDigit (numeral.digit char member)⟩

theorem exists_trimStart (text : List Char) :
    ∃ ahead, text = ahead ++ trimStart text ∧ ∀ char ∈ ahead, isBlank char = true :=
  ⟨text.takeWhile isBlank, List.takeWhile_append_dropWhile.symm,
    fun _ member => List.mem_takeWhile_imp member⟩

theorem exists_trimEnd (text : List Char) :
    ∃ behind, text = trimEnd text ++ behind ∧ ∀ char ∈ behind, isBlank char = true := by
  obtain ⟨behind, split, blank⟩ := exists_trimStart text.reverse
  refine ⟨behind.reverse, ?_, fun char member => blank char (List.mem_reverse.mp member)⟩
  have turned := congrArg List.reverse split
  rwa [List.reverse_reverse, List.reverse_append] at turned

theorem exists_trim (text : List Char) :
    ∃ ahead behind, text = ahead ++ (trim text ++ behind) ∧
      (∀ char ∈ ahead, isBlank char = true) ∧ ∀ char ∈ behind, isBlank char = true := by
  obtain ⟨ahead, split, blankAhead⟩ := exists_trimStart text
  obtain ⟨behind, kept, blankBehind⟩ := exists_trimEnd (trimStart text)
  exact ⟨ahead, behind, split.trans (congrArg (ahead ++ ·) kept), blankAhead, blankBehind⟩

/-- White space is removed as far as the first and the last character that is none. -/
theorem trim_eq {ahead core behind : List Char} (blankAhead : ∀ char ∈ ahead, isBlank char = true)
    (solid : ∀ char ∈ core, isBlank char = false) (nonempty : core ≠ [])
    (blankBehind : ∀ char ∈ behind, isBlank char = true) :
    trim (ahead ++ (core ++ behind)) = core := by
  have stops {core : List Char} (solid : ∀ char ∈ core, isBlank char = false) (nonempty : core ≠ [])
      {blank : List Char} (isBlank : ∀ char ∈ blank, isBlank char = true) (rest : List Char) :
      trimStart (blank ++ (core ++ rest)) = core ++ rest := by
    obtain ⟨first, others, rfl⟩ := List.exists_cons_of_ne_nil nonempty
    unfold trimStart
    rw [List.dropWhile_append_of_pos isBlank, List.cons_append,
      List.dropWhile_cons_of_neg (by simp [solid first List.mem_cons_self])]
  unfold trim trimEnd
  rw [stops solid nonempty blankAhead, List.reverse_append,
    ← List.append_nil (core.reverse), stops (fun char member => solid char (List.mem_reverse.mp member))
      (by simpa using nonempty) (fun char member => blankBehind char (List.mem_reverse.mp member)),
    List.append_nil, List.reverse_reverse]

end Text

theorem Decoding.integerIn?_eq_some_iff {text : String} {value : Int} :
    integerIn? text = some value ↔ Text.HoldsInteger text.toList value ∧ Text.Fits value := by
  have read : integerIn? text = some value ↔
      Text.readInteger (Text.trim text.toList) = .ok value :=
    ⟨eq_ok_of_toOption, fun read => by rw [integerIn?, read]; rfl⟩
  rw [read, Text.readInteger_ok_iff]
  refine and_congr_left fun _ => ⟨fun isInteger => ?_, ?_⟩
  · obtain ⟨ahead, behind, split, blankAhead, blankBehind⟩ := Text.exists_trim text.toList
    exact ⟨ahead, _, behind, split, isInteger, blankAhead, blankBehind⟩
  · rintro ⟨ahead, numeral, behind, split, isInteger, blankAhead, blankBehind⟩
    have nonempty : numeral ≠ [] := by
      cases isInteger with
      | plain numeral => exact numeral.nonempty
      | positive => exact List.cons_ne_nil _ _
      | negative => exact List.cons_ne_nil _ _
    rw [split, Text.trim_eq blankAhead (Text.not_isBlank_of_isInteger isInteger) nonempty blankBehind]
    exact isInteger

end HostTimeline
