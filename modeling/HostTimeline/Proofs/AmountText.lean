import HostTimeline.Decimal.Fixed
import HostTimeline.Proofs.DateText
import HostTimeline.Proofs.Number.Floor

/-!
Printed amounts.  The text of a finite number is read back without the printer
(`Decimal.textValue`).  It denotes the hundredths nearest to the exact value, whichever of the two
forms it has (`Binary64.textValue_amountText`), so its error is bounded, integers are printed
exactly and the order of the numbers is kept (`Binary64.printsFaithfully`).
-/

namespace HostTimeline

namespace Decimal

open Text (IsNumeral)

/-- The number that decimal digits denote, with more of them behind a point or without. -/
def unsignedValue (text : List Char) : Rat :=
  let fraction := (text.dropWhile Char.isDigit).drop 1
  valueOf (text.takeWhile Char.isDigit) + (valueOf fraction : Rat) / 10 ^ fraction.length

/-- The number that a text of digits denotes, negative behind a minus sign. -/
def textValue : List Char → Rat
  | '-' :: digits => -unsignedValue digits
  | digits => unsignedValue digits

/-- Decimal digits behind an optional minus sign, so many of them behind a point; no point
without digits behind it. -/
inductive HasPlaces : List Char → Nat → Prop where
  | whole (negative : Bool) {digits : List Char} (numeral : IsNumeral digits) :
      HasPlaces (sign negative ++ digits) 0
  | fractional (negative : Bool) {digits fraction : List Char} (numeral : IsNumeral digits)
      (behind : IsNumeral fraction) :
      HasPlaces (sign negative ++ (digits ++ '.' :: fraction)) fraction.length

section Reading

variable {digits : List Char}

theorem isNumeral_digitsOf (value : Nat) : IsNumeral (digitsOf value) where
  nonempty := Nat.toDigits_ne_nil
  digit _ member := Nat.isDigit_of_mem_toDigits (by decide) (Nat.le_refl 10) member

theorem valueOf_digitsOf (value : Nat) : valueOf (digitsOf value) = value :=
  Nat.ofDigitChars_toDigits (by decide) (Nat.le_refl 10)

/-- Digits that follow others move these up. -/
theorem valueOf_append (digits behind : List Char) :
    valueOf (digits ++ behind) = valueOf digits * 10 ^ behind.length + valueOf behind := by
  induction behind using List.reverseRecOn with
  | nil => simp [valueOf]
  | append_singleton behind last ih =>
      have next (digits : List Char) :
          valueOf (digits ++ [last]) = 10 * valueOf digits + digitValue last := by
        simp [valueOf]
      rw [← List.append_assoc, next, next, ih, List.length_append, List.length_singleton]
      ring

theorem unsignedValue_numeral (numeral : IsNumeral digits) :
    unsignedValue digits = valueOf digits := by
  obtain ⟨taken, dropped⟩ :=
    Calendar.takeWhile_numeral numeral (show ∀ char ∈ ([] : List Char).head?, _ by simp)
  rw [List.append_nil] at taken dropped
  simp [unsignedValue, taken, dropped, valueOf]

theorem unsignedValue_point (numeral : IsNumeral digits) (fraction : List Char) :
    unsignedValue (digits ++ '.' :: fraction) =
      (valueOf (digits ++ fraction) : Rat) / 10 ^ fraction.length := by
  obtain ⟨taken, dropped⟩ :=
    Calendar.takeWhile_numeral numeral (show ∀ char ∈ ('.' :: fraction).head?, _ by rintro _ ⟨⟩; rfl)
  have powers : (10 : Rat) ^ fraction.length ≠ 0 := by positivity
  rw [valueOf_append]
  simp only [unsignedValue, taken, dropped, List.drop_one, List.tail_cons]
  push_cast
  rw [add_div, mul_div_cancel_right₀ _ powers]

theorem textValue_sign (negative : Bool) (plain : ∀ rest, digits ≠ '-' :: rest) :
    textValue (sign negative ++ digits) =
      if negative then -unsignedValue digits else unsignedValue digits := by
  cases negative
  · change textValue digits = unsignedValue digits
    unfold textValue
    split
    next rest => exact absurd rfl (plain rest)
    next => rfl
  · rfl

end Reading

/-- The places of a number of units, taken apart at the point. -/
theorem exists_withPlaces (units places : Nat) : ∃ digits fraction,
    withPlaces units places = digits ++ '.' :: fraction ∧ IsNumeral digits ∧
      (∀ digit ∈ fraction, digit.isDigit = true) ∧ fraction.length = places ∧
      valueOf (digits ++ fraction) = units := by
  have padded : (digitsOf units).leftpad (places + 1) '0' = Calendar.padded (places + 1) units := rfl
  have long : places + 1 ≤ (Calendar.padded (places + 1) units).length :=
    Nat.le_trans (Nat.le_max_left _ _) (Nat.le_of_eq List.length_leftpad.symm)
  refine ⟨_, _, rfl, ⟨fun empty => ?_, fun digit member => ?_⟩, fun digit member => ?_, ?_, ?_⟩
  · have length := congrArg List.length empty
    rw [padded, List.length_take, List.length_nil] at length
    omega
  · exact Calendar.mem_padded (List.mem_of_mem_take member)
  · exact Calendar.mem_padded (List.mem_of_mem_drop member)
  · rw [padded, List.length_drop]
    omega
  · rw [List.take_append_drop]
    exact Calendar.valueOf_padded _ _

end Decimal

namespace Binary64

open Float.Model Float.Model.UnpackedFloat
open Decimal (textValue unsignedValue HasPlaces digitsOf withPlaces)
open Text (IsNumeral)

section Rounding

theorem roundQuotient_two_pow (value shift : Nat) :
    roundQuotient value (2 ^ shift) = halfEven value shift := by
  simp only [roundQuotient, halfEven]
  split_ifs <;> omega

/-- Rounding moves a number by half a unit at most. -/
theorem halfEven_error (value shift : Nat) :
    2 * value ≤ 2 * (halfEven value shift * 2 ^ shift) + 2 ^ shift ∧
      2 * (halfEven value shift * 2 ^ shift) ≤ 2 * value + 2 ^ shift := by
  have parts := Nat.div_add_mod' value (2 ^ shift)
  have bound := Nat.mod_lt value (Nat.two_pow_pos shift)
  unfold halfEven
  split
  · omega
  · split
    · rcases Nat.mod_two_eq_zero_or_one (value / 2 ^ shift) with even | odd
      · rw [even, Nat.add_zero]
        omega
      · rw [odd, Nat.add_mul, Nat.one_mul]
        omega
    · rw [Nat.add_mul, Nat.one_mul]
      omega

/-- The hundredths nearest to a number of units. -/
def hundredths : Int → Int :=
  mirrored fun size => halfEven (100 * size) 1074

theorem halfEven_whole (value shift : Nat) : halfEven (value * 2 ^ shift) shift = value := by
  have scaled := halfEven_scale value 0 shift
  rwa [Nat.zero_add, halfEven_zero_shift] at scaled

theorem hundredths_apply (sign : Sign) (size : Nat) :
    hundredths (sign.apply size) = sign.apply (halfEven (100 * size) 1074 : Nat) := by
  refine mirrored_apply ?_ sign size
  have zero := halfEven_whole 0 1074
  rwa [Nat.zero_mul] at zero

theorem hundredths_le {low high : Int} (le : low ≤ high) : hundredths low ≤ hundredths high :=
  mirrored_le (fun le => halfEven_le (Nat.mul_le_mul_left 100 le) 1074) le

theorem hundredths_whole (value : Int) : hundredths (value * (2 ^ 1074 : Nat)) = 100 * value := by
  obtain ⟨sign, size, rfl⟩ := exists_apply value
  rw [apply_mul, hundredths_apply, ← Nat.mul_assoc, halfEven_whole, Nat.mul_comm, ← apply_mul,
    Int.mul_comm]
  rfl

theorem abs_halfEven_sub_le (value shift : Nat) :
    |(halfEven (100 * value) shift : Rat) / 100 - value / (2 ^ shift : Nat)| ≤ 1 / 200 := by
  obtain ⟨below, above⟩ := halfEven_error (100 * value) shift
  have positive := Nat.two_pow_pos shift
  generalize 2 ^ shift = unit at below above positive ⊢
  generalize halfEven (100 * value) shift = rounded at below above ⊢
  have one : (0 : Rat) < unit := Nat.cast_pos.mpr positive
  have lower : (2 * (100 * value) : Rat) ≤ 2 * (rounded * unit) + unit := by exact_mod_cast below
  have upper : (2 * (rounded * unit) : Rat) ≤ 2 * (100 * value) + unit := by exact_mod_cast above
  have fractions : (rounded : Rat) / 100 - value / unit =
      (2 * (rounded * unit) - 2 * (100 * value)) / (200 * unit) := by
    field_simp
    ring
  rw [fractions, abs_div, abs_of_pos (show (0 : Rat) < 200 * unit by positivity),
    div_le_iff₀ (by positivity), abs_le]
  constructor <;> linarith

theorem abs_hundredths_sub_le (value : Int) :
    |(hundredths value : Rat) / 100 - value / (2 ^ 1074 : Nat)| ≤ 1 / 200 := by
  obtain ⟨sign, size, rfl⟩ := exists_apply value
  have near := abs_halfEven_sub_le size 1074
  rw [hundredths_apply]
  cases sign with
  | positive => exact near
  | negative =>
      simp only [Sign.apply]
      rw [Int.cast_neg, Int.cast_neg, neg_div, neg_div, neg_sub_neg, abs_sub_comm]
      exact near

end Rounding

/-- The digits printed for a number of units. -/
inductive PrintsUnits : Nat → List Char → Prop where
  | whole (value : Nat) : PrintsUnits (value * 2 ^ 1074) (digitsOf value)
  | fractional {size : Nat} (remains : ∀ value, size ≠ value * 2 ^ 1074) :
      PrintsUnits size (withPlaces (halfEven (100 * size) 1074) 2)

theorem exists_parts {x : Float} (finite : x.isFinite = true) :
    ∃ (sign : Sign) (significand : Nat) (exponent : Int),
      parts x = .finite (isNegative sign) significand exponent ∧
        ticks x = sign.apply (magnitude significand exponent) ∧ -1074 ≤ exponent := by
  have canonical : Canonical x.toModel.unpack := canonical_unpack _
  unfold parts ticks
  change x.toModel.unpack.isFinite = true at finite
  generalize x.toModel.unpack = unpacked at canonical finite ⊢
  cases canonical with
  | notANumber => cases finite
  | infinity sign => cases finite
  | zero sign =>
      have nothing : magnitude 0 0 = 0 := Nat.zero_mul _
      refine ⟨sign, 0, 0, rfl, ?_, by decide⟩
      rw [nothing]
      cases sign <;> rfl
  | finite sign significand exponent positive form => exact ⟨sign, _, _, rfl, rfl, form.least⟩

/-- Hundredths of a number with a fractional exponent, from its parts and from its units. -/
theorem roundQuotient_hundredths {exponent : Int} (least : -1074 ≤ exponent)
    (fractional : exponent < 0) (significand : Nat) :
    roundQuotient (100 * significand) (fractionUnit exponent) =
      halfEven (100 * magnitude significand exponent) 1074 := by
  have shifts : (1074 : Nat) = (-exponent).toNat + (exponent + 1074).toNat := by omega
  calc roundQuotient (100 * significand) (fractionUnit exponent)
      = halfEven (100 * significand) (-exponent).toNat := roundQuotient_two_pow _ _
    _ = halfEven (100 * significand * 2 ^ (exponent + 1074).toNat)
          ((-exponent).toNat + (exponent + 1074).toNat) := (halfEven_scale _ _ _).symm
    _ = halfEven (100 * magnitude significand exponent) 1074 := by
        rw [← shifts, Nat.mul_assoc, magnitude]

/-- A finite number is printed as its sign and the digits for its magnitude. -/
theorem exists_amountText {x : Float} (finite : x.isFinite = true) :
    ∃ (sign : Sign) (size : Nat) (digits : List Char), ticks x = sign.apply size ∧
      (amountText x).toList = Decimal.sign (isNegative sign) ++ digits ∧
      PrintsUnits size digits := by
  obtain ⟨sign, significand, exponent, shape, value, least⟩ := exists_parts finite
  have printed : (amountText x).toList = amountChars x := String.toList_ofList
  unfold amountChars at printed
  simp only [shape] at printed
  cases read : integer? x with
  | some own =>
      rw [read] at printed
      have sizes := congrArg Int.natAbs (value.symm.trans (integer?_eq_some_iff.mp read).2)
      rw [natAbs_apply, Int.natAbs_mul, Int.natAbs_natCast] at sizes
      have prints := PrintsUnits.whole own.natAbs
      rw [← sizes] at prints
      exact ⟨sign, _, _, value, printed, prints⟩
  | none =>
      rw [read] at printed
      have remains (own : Nat) : magnitude significand exponent ≠ own * 2 ^ 1074 := by
        intro whole
        have equals : EqualsInteger x (sign.apply own) :=
          ⟨finite, by rw [value, whole, apply_mul]⟩
        rw [integer?_eq_some_iff.mpr equals] at read
        cases read
      have fractional : exponent < 0 := by
        by_contra whole
        exact remains _ (magnitude_of_whole (Int.not_lt.mp whole) significand)
      rw [roundQuotient_hundredths least fractional] at printed
      exact ⟨sign, _, _, value, printed, .fractional remains⟩

/-- Both forms denote the nearest hundredths. -/
theorem PrintsUnits.unsignedValue_eq {size : Nat} {digits : List Char}
    (prints : PrintsUnits size digits) :
    unsignedValue digits = (halfEven (100 * size) 1074 : Rat) / 100 := by
  cases prints with
  | whole value =>
      rw [Decimal.unsignedValue_numeral (Decimal.isNumeral_digitsOf value),
        Decimal.valueOf_digitsOf, ← Nat.mul_assoc, halfEven_whole, Nat.cast_mul, Nat.cast_ofNat,
        mul_div_cancel_left₀ _ (by norm_num)]
  | fractional remains =>
      obtain ⟨digits, fraction, text, numeral, _, length, units⟩ :=
        Decimal.exists_withPlaces (halfEven (100 * size) 1074) 2
      have places : (10 : Rat) ^ 2 = 100 := by norm_num
      rw [text, Decimal.unsignedValue_point numeral, units, length, places]

theorem PrintsUnits.plain {size : Nat} {digits : List Char} (prints : PrintsUnits size digits)
    (rest : List Char) : digits ≠ '-' :: rest := by
  cases prints with
  | whole value =>
      have numeral := Decimal.isNumeral_digitsOf value
      have plain : digitsOf value ++ [] ≠ '-' :: rest :=
        (Calendar.not_sign_of_numeral numeral rest).1
      rwa [List.append_nil] at plain
  | fractional remains =>
      obtain ⟨digits, fraction, text, numeral, _⟩ :=
        Decimal.exists_withPlaces (halfEven (100 * size) 1074) 2
      rw [text]
      exact (Calendar.not_sign_of_numeral numeral rest).1

theorem PrintsUnits.hasPlaces {size : Nat} {digits : List Char} (prints : PrintsUnits size digits)
    (negative : Bool) :
    (∃ value, size = value * 2 ^ 1074 ∧ HasPlaces (Decimal.sign negative ++ digits) 0) ∨
      (∀ value, size ≠ value * 2 ^ 1074) ∧ HasPlaces (Decimal.sign negative ++ digits) 2 := by
  cases prints with
  | whole value => exact .inl ⟨value, rfl, .whole negative (Decimal.isNumeral_digitsOf value)⟩
  | fractional remains =>
      obtain ⟨digits, fraction, text, numeral, behind, length, _⟩ :=
        Decimal.exists_withPlaces (halfEven (100 * size) 1074) 2
      have nonempty : fraction ≠ [] := List.ne_nil_of_length_eq_add_one length
      have places := HasPlaces.fractional negative numeral ⟨nonempty, behind⟩
      rw [length, ← text] at places
      exact .inr ⟨remains, places⟩

/-- The text of a finite number denotes the nearest hundredths. -/
theorem textValue_amountText {x : Float} (finite : x.isFinite = true) :
    textValue (amountText x).toList = (hundredths (ticks x) : Rat) / 100 := by
  obtain ⟨sign, size, digits, value, text, prints⟩ := exists_amountText finite
  rw [text, value, hundredths_apply, Decimal.textValue_sign _ prints.plain, prints.unsignedValue_eq]
  cases sign with
  | positive => rfl
  | negative =>
      simp only [isNegative, if_true, Sign.apply]
      rw [Int.cast_neg, neg_div, Int.cast_natCast]

theorem hasPlaces_amountText {x : Float} (finite : x.isFinite = true) :
    (∃ whole : Int, toRat x = whole) ∧ HasPlaces (amountText x).toList 0 ∨
      (¬ ∃ whole : Int, toRat x = whole) ∧ HasPlaces (amountText x).toList 2 := by
  obtain ⟨sign, size, digits, value, text, prints⟩ := exists_amountText finite
  rw [text]
  rcases prints.hasPlaces (isNegative sign) with ⟨own, whole, places⟩ | ⟨remains, places⟩
  · refine .inl ⟨⟨sign.apply own, toRat_eq_intCast_iff.mpr ?_⟩, places⟩
    rw [value, whole, apply_mul]
  · refine .inr ⟨?_, places⟩
    rintro ⟨whole, equals⟩
    have sizes := congrArg Int.natAbs (value.symm.trans (toRat_eq_intCast_iff.mp equals))
    rw [natAbs_apply, Int.natAbs_mul, Int.natAbs_natCast] at sizes
    exact remains _ sizes

/-- What the printed text tells about a number. -/
structure PrintsFaithfully (x : Float) : Prop where
  whole : (∃ value : Int, toRat x = value) → HasPlaces (amountText x).toList 0
  fractional : (¬ ∃ value : Int, toRat x = value) → HasPlaces (amountText x).toList 2
  near : |textValue (amountText x).toList - toRat x| ≤ 1 / 200
  exact : (∃ value : Int, toRat x = value) → textValue (amountText x).toList = toRat x
  ordered : ∀ y : Float, y.isFinite = true → x ≤ y →
    textValue (amountText x).toList ≤ textValue (amountText y).toList

theorem printsFaithfully {x : Float} (finite : x.isFinite = true) : PrintsFaithfully x where
  whole equals := by
    rcases hasPlaces_amountText finite with ⟨_, places⟩ | ⟨differs, _⟩
    · exact places
    · exact absurd equals differs
  fractional differs := by
    rcases hasPlaces_amountText finite with ⟨equals, _⟩ | ⟨_, places⟩
    · exact absurd equals differs
    · exact places
  near := by
    rw [textValue_amountText finite]
    exact abs_hundredths_sub_le (ticks x)
  exact := by
    rintro ⟨value, equals⟩
    rw [textValue_amountText finite, toRat_eq_intCast_iff.mp equals, hundredths_whole, equals,
      Int.cast_mul, Int.cast_ofNat, mul_div_cancel_left₀ _ (by norm_num)]
  ordered y other le := by
    rw [textValue_amountText finite, textValue_amountText other]
    have rounded : (hundredths (ticks x) : Rat) ≤ hundredths (ticks y) :=
      Int.cast_le.mpr (hundredths_le (le_iff.mp le).2.2)
    exact div_le_div_of_nonneg_right rounded (by norm_num)

/-- Rounding carries into the integer digits, and the point stays. -/
theorem printsFaithfully_carried :
    amountText (-999.996) = "-1000.00" ∧ PrintsFaithfully (-999.996) :=
  ⟨by decide +kernel, printsFaithfully (by decide +kernel)⟩

end Binary64

end HostTimeline
