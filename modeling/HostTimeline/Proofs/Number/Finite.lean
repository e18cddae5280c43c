import HostTimeline.Proofs.Number.Rounding

/-!
Finite results.  Rounding a finite number to an integer gives a finite number
(`isFinite_round`), and integers are converted to numbers (`isNaN_ofInt`).
-/

namespace HostTimeline.Binary64

open Float.Model Float.Model.UnpackedFloat

theorem natAbs_apply (sign : Sign) (value : Nat) : (sign.apply value).natAbs = value := by
  cases sign
  · exact Int.natAbs_neg value
  · exact Int.natAbs_natCast value

theorem apply_mul (sign : Sign) (value scale : Nat) :
    sign.apply value * (scale : Int) = sign.apply (value * scale : Nat) := by
  cases sign <;> simp [Sign.apply]

theorem exists_apply (value : Int) : ∃ (sign : Sign) (size : Nat), sign.apply size = value := by
  rcases Int.natAbs_eq value with positive | negative
  · exact ⟨.positive, value.natAbs, positive.symm⟩
  · exact ⟨.negative, value.natAbs, negative.symm⟩

theorem natAbs_roundedUnits_le (value : Int) :
    (roundedUnits value).natAbs ≤ infiniteMagnitude := by
  obtain ⟨sign, size, rfl⟩ := exists_apply value
  rw [roundedUnits_apply, natAbs_apply]
  exact Nat.min_le_right _ _

theorem natAbs_units_lt {unpacked : UnpackedFloat} (canonical : Canonical unpacked)
    (finite : unpacked.isFinite = true) : (units unpacked).natAbs < infiniteMagnitude := by
  cases canonical with
  | notANumber => cases finite
  | infinity sign => cases finite
  | zero sign => exact magnitude_pos (Nat.two_pow_pos 52) _
  | finite sign significand exponent positive form =>
      rw [units, natAbs_apply]
      exact form.magnitude_lt_infinity

theorem natAbs_ticks_lt {x : Float} (finite : x.isFinite = true) :
    (ticks x).natAbs < infiniteMagnitude :=
  natAbs_units_lt (canonical_unpack _) finite

theorem natAbs_units_le {unpacked : UnpackedFloat} (canonical : Canonical unpacked) :
    (units unpacked).natAbs ≤ infiniteMagnitude := by
  by_cases finite : unpacked.isFinite = true
  · exact Nat.le_of_lt (natAbs_units_lt canonical finite)
  · cases canonical with
    | notANumber => exact Nat.zero_le _
    | infinity sign => exact Nat.le_of_eq (natAbs_apply sign _)
    | zero sign => exact absurd rfl finite
    | finite sign significand exponent positive form => exact absurd rfl finite

theorem natAbs_ticks_le (x : Float) : (ticks x).natAbs ≤ infiniteMagnitude :=
  natAbs_units_le (canonical_unpack _)

theorem isFinite_of_units_lt {unpacked : UnpackedFloat} (number : unpacked ≠ .notANumber)
    (bounded : (units unpacked).natAbs < infiniteMagnitude) : unpacked.isFinite = true := by
  cases unpacked with
  | notANumber => exact absurd rfl number
  | infinity sign =>
      rw [units, natAbs_apply] at bounded
      exact absurd bounded (Nat.lt_irrefl _)
  | zero sign => rfl
  | finite sign significand exponent positive => rfl

theorem HasUnits.isFinite {bits : BitVec Format.binary64.numBits} {value : Int}
    (made : HasUnits bits value) (bounded : value.natAbs < infiniteMagnitude) :
    (UnpackedFloat.unpack .binary64 bits).isFinite = true :=
  isFinite_of_units_lt made.number (made.value.symm ▸ bounded)

theorem isFinite_packedZero (sign : Sign) :
    (UnpackedFloat.unpack .binary64 (packedZero .binary64 sign)).isFinite = true :=
  (units_packedZero sign).isFinite (magnitude_pos (Nat.two_pow_pos 52) _)

theorem nearestUnits_lt_two_pow {value bits : Nat} (bounded : value < 2 ^ bits) :
    nearestUnits value < 2 ^ (bits + 1) := by
  rcases Nat.le_total value.log2 52 with small | wide
  · rw [nearestUnits_of_log2_le small]
    exact Nat.lt_of_lt_of_le bounded (Nat.pow_le_pow_right (by decide) (Nat.le_succ bits))
  · have positive : value ≠ 0 := by
      intro zero
      rw [zero, Nat.log2_zero] at wide
      omega
    have log : value.log2 < bits := (Nat.log2_lt positive).mpr bounded
    exact Nat.lt_of_le_of_lt (nearestUnits_le_two_pow value wide)
      (Nat.pow_lt_pow_right (by decide) (by omega))

theorem mul_two_pow_lt {value bits : Nat} (bounded : value < 2 ^ bits) (scale : Nat) :
    value * 2 ^ scale < 2 ^ (bits + scale) := by
  rw [pow_add]
  exact Nat.mul_lt_mul_of_pos_right bounded (Nat.two_pow_pos scale)

theorem two_pow_le_infinite {bits : Nat} (narrow : bits ≤ 2098) : 2 ^ bits ≤ infiniteMagnitude := by
  have scale : ((972 : Int) + 1074).toNat = 2046 := rfl
  have exponents : bits ≤ 52 + ((972 : Int) + 1074).toNat := by omega
  exact (Nat.pow_le_pow_right (by decide) exponents).trans_eq (pow_add 2 52 _)

/-- A small natural number, converted as an integer of 64 bits. -/
theorem units_toFloat {value : Nat} (bounded : value < 2 ^ 53) :
    value.toUInt64.toFloat.toModel.unpack ≠ .notANumber ∧
      units value.toUInt64.toFloat.toModel.unpack =
        (min (nearestUnits (value * 2 ^ 1074)) infiniteMagnitude : Nat) := by
  have unpacked : value.toUInt64.toFloat.toModel.unpack = UnpackedFloat.unpack .binary64
      (UnpackedFloat.pack .binary64 (UnpackedFloat.normalize .binary64 (value : Int) 0 .positive)) := by
    have same : value.toUInt64.toNat = value := Nat.mod_eq_of_lt (by omega)
    change UnpackedFloat.unpack .binary64 (UnpackedFloat.pack .binary64
      (UnpackedFloat.normalize .binary64 (value.toUInt64.toNat : Int) 0 .positive)) = _
    rw [same]
  rw [unpacked]
  rcases Nat.eq_zero_or_pos value with zero | positive
  · subst zero
    have nothing : nearestUnits (0 * 2 ^ 1074) = 0 := by
      rw [Nat.zero_mul]
      exact nearestUnits_of_log2_le (by decide)
    rw [nothing, Nat.zero_min]
    exact ⟨(units_packedZero .positive).number, (units_packedZero .positive).value⟩
  · have order : compare (value : Int) 0 = .gt := Int.compare_eq_gt.mpr (by omega)
    unfold UnpackedFloat.normalize
    simp only [order, Int.toNat_natCast]
    have rounded := units_roundExact .positive positive (show -1074 ≤ (0 : Int) by decide)
    have scale : ((0 : Int) + 1074).toNat = 1074 := rfl
    rw [magnitude, scale] at rounded
    exact ⟨rounded.number, rounded.value⟩

theorem unpack_one : (Float.ofBits 0x3FF0000000000000).toModel.unpack =
    .finite .positive (2 ^ 52) (-52) (by decide) := by
  rfl

/-- Multiplying by one rounds what is too long to be kept. -/
theorem units_mul_one (sign : Sign) {significand : Nat} {exponent : Int} (positive : 0 < significand)
    (form : IsCanonical significand exponent) :
    HasUnits (UnpackedFloat.pack .binary64 (UnpackedFloat.mul .binary64
        (.finite sign significand exponent positive)
        (.finite .positive (2 ^ 52) (-52) (by decide))))
      ((sign * .positive).apply
        (min (nearestUnits (magnitude significand exponent)) infiniteMagnitude : Nat)) := by
  have least := form.least
  have normal : 2 ^ 52 ≤ significand * 2 ^ 52 := Nat.le_mul_of_pos_left _ positive
  have whole : significand * 2 ^ 52 * 2 ^ (exponent + 1074).toNat =
      magnitude significand exponent * 2 ^ 52 := Nat.mul_right_comm _ _ _
  exact units_round (sign * .positive) (by omega) (.inl normal) whole
    (show exponent + -52 + 1074 = ((exponent + 1074).toNat : Int) - (52 : Nat) by omega)

theorem unpack_mul_one (x : Float) : (x * Float.ofBits 0x3FF0000000000000).toModel.unpack =
    UnpackedFloat.unpack .binary64 (UnpackedFloat.pack .binary64 (UnpackedFloat.mul .binary64
      x.toModel.unpack (.finite .positive (2 ^ 52) (-52) (by decide)))) := by
  rw [← unpack_one]
  rfl

theorem isFinite_mul_one {x : Float} (finite : x.isFinite = true) {bits : Nat}
    (bounded : (ticks x).natAbs < 2 ^ bits) (narrow : bits ≤ 2097) :
    (x * Float.ofBits 0x3FF0000000000000).isFinite = true := by
  change x.toModel.unpack.isFinite = true at finite
  have product := unpack_mul_one x
  have canonical : Canonical x.toModel.unpack := canonical_unpack _
  change (x * Float.ofBits 0x3FF0000000000000).toModel.unpack.isFinite = true
  unfold ticks at bounded
  rw [product]
  cases unpacked : x.toModel.unpack with
  | notANumber => rw [unpacked] at finite; cases finite
  | infinity sign => rw [unpacked] at finite; cases finite
  | zero sign =>
      have nothing : UnpackedFloat.pack .binary64 (UnpackedFloat.mul .binary64 (.zero sign)
          (.finite .positive (2 ^ 52) (-52) (by decide))) =
            packedZero .binary64 (sign * .positive) := rfl
      rw [nothing]
      exact isFinite_packedZero _
  | finite sign significand exponent positive =>
      rw [unpacked] at canonical bounded
      cases canonical with
      | finite _ _ _ _ form =>
          refine (units_mul_one sign positive form).isFinite ?_
          rw [units, natAbs_apply] at bounded
          rw [natAbs_apply]
          exact Nat.lt_of_le_of_lt (Nat.min_le_left _ _)
            (Nat.lt_of_lt_of_le (nearestUnits_lt_two_pow bounded)
              (two_pow_le_infinite (Nat.succ_le_succ narrow)))

theorem ofNat_eq_mul_one {value : Nat} (bounded : value < 2 ^ 53) :
    Float.ofNat value = value.toUInt64.toFloat * Float.ofBits 0x3FF0000000000000 := by
  change Float.ofScientific value false 0 = _
  unfold Float.ofScientific
  rw [dif_pos ⟨bounded, by decide⟩]
  rfl

theorem isFinite_ofNat {value : Nat} (bounded : value < 2 ^ 53) :
    (Float.ofNat value).isFinite = true := by
  obtain ⟨number, converted⟩ := units_toFloat bounded
  have small : value * 2 ^ 1074 < 2 ^ (53 + 1074) := mul_two_pow_lt bounded 1074
  have ticksBound : (ticks value.toUInt64.toFloat).natAbs < 2 ^ (53 + 1074 + 1) := by
    unfold ticks
    rw [converted, Int.natAbs_natCast]
    exact Nat.lt_of_le_of_lt (Nat.min_le_left _ _) (nearestUnits_lt_two_pow small)
  have finite : value.toUInt64.toFloat.isFinite = true :=
    isFinite_of_units_lt number (Nat.lt_of_lt_of_le ticksBound (two_pow_le_infinite (by decide)))
  rw [ofNat_eq_mul_one bounded]
  exact isFinite_mul_one finite ticksBound (by decide)

theorem isFinite_neg {x : Float} (finite : x.isFinite = true) : (-x).isFinite = true := by
  change x.toModel.unpack.isFinite = true at finite
  change (UnpackedFloat.unpack .binary64
    (UnpackedFloat.pack .binary64 x.toModel.unpack.neg)).isFinite = true
  have canonical : Canonical x.toModel.unpack := canonical_unpack _
  cases unpacked : x.toModel.unpack with
  | notANumber => rw [unpacked] at finite; cases finite
  | infinity sign => rw [unpacked] at finite; cases finite
  | zero sign =>
      have nothing : UnpackedFloat.pack .binary64 (UnpackedFloat.zero sign).neg =
          packedZero .binary64 (-sign) := rfl
      rw [nothing]
      exact isFinite_packedZero (-sign)
  | finite sign significand exponent positive =>
      rw [unpacked] at canonical
      cases canonical with
      | finite _ _ _ _ form =>
          refine (units_pack (-sign) positive form.bounded form.least form.normal).isFinite ?_
          rw [natAbs_apply]
          exact Nat.lt_of_le_of_lt (Nat.min_le_left _ _) form.magnitude_lt_infinity

theorem isNaN_neg {x : Float} (number : x.isNaN = false) : (-x).isNaN = false := by
  rw [isNaN_eq_false_iff] at number ⊢
  change UnpackedFloat.unpack .binary64
    (UnpackedFloat.pack .binary64 x.toModel.unpack.neg) ≠ .notANumber
  have canonical : Canonical x.toModel.unpack := canonical_unpack _
  cases unpacked : x.toModel.unpack with
  | notANumber => exact absurd unpacked number
  | infinity sign => cases sign <;> exact fun same => by cases same
  | zero sign => exact (units_packedZero (-sign)).number
  | finite sign significand exponent positive =>
      rw [unpacked] at canonical
      cases canonical with
      | finite _ _ _ _ form =>
          exact (units_pack (-sign) positive form.bounded form.least form.normal).number

/-- A natural number that is too long to be kept is rounded. -/
theorem ticks_ofNat_of_large {value : Nat} (large : 2 ^ 53 ≤ value) :
    (Float.ofNat value).isNaN = false ∧
      ticks (Float.ofNat value) = roundedUnits (value * 2 ^ 1074 : Nat) := by
  have conversion : Float.ofNat value = Float.ofModel (.ofScientific value 0) := by
    change Float.ofScientific value false 0 = _
    unfold Float.ofScientific
    rw [dif_neg (fun both => Nat.not_lt_of_le large both.1)]
    rfl
  have model : UnpackedFloat.ofScientific .binary64 value 0 =
      roundWithAccuracy .binary64 .positive (value * 2 ^ 53) (-53) .exact := by
    have low : ¬ (0 : Int) < -((2 ^ Format.binary64.exponentBits : Int) + value.log2) := by
      have wide : (0 : Int) ≤ 2 ^ Format.binary64.exponentBits := by decide
      omega
    unfold UnpackedFloat.ofScientific
    rw [dif_neg (by omega), if_neg (by decide), if_neg low, if_pos (Int.le_refl 0)]
    have bits : Format.binary64.mantissaBits = 53 := rfl
    have sign : Sign.positive * .positive = .positive := rfl
    have one : 10 ^ (0 : Int).toNat = 1 := rfl
    simp only [UnpackedFloat.mul, bits, sign, one, Nat.shiftLeft_eq, Nat.mul_one, Int.add_zero,
      Nat.cast_ofNat]
  have rounded := units_round .positive (show 0 < value * 2 ^ 53 by omega) (.inl (by omega))
    (Nat.mul_right_comm value (2 ^ 53) (2 ^ 1074)) (show (-53 : Int) + 1074 = _ by omega)
  rw [isNaN_eq_false_iff, conversion]
  change UnpackedFloat.unpack .binary64 (UnpackedFloat.pack .binary64
      (UnpackedFloat.ofScientific .binary64 value 0)) ≠ .notANumber ∧
    units (UnpackedFloat.unpack .binary64 (UnpackedFloat.pack .binary64
      (UnpackedFloat.ofScientific .binary64 value 0))) = _
  rw [model]
  exact ⟨rounded.number, rounded.value.trans (roundedUnits_apply .positive _).symm⟩

theorem isNaN_ofNat (value : Nat) : (Float.ofNat value).isNaN = false := by
  by_cases bounded : value < 2 ^ 53
  · exact isNaN_of_isFinite (isFinite_ofNat bounded)
  · exact (ticks_ofNat_of_large (by omega)).1

theorem isNaN_ofInt (value : Int) : (Float.ofInt value).isNaN = false := by
  cases value with
  | ofNat value => exact isNaN_ofNat value
  | negSucc value => exact isNaN_neg (isNaN_ofNat (value + 1))

/-- Rounding to an integer keeps a number finite. -/
theorem isFinite_round {x : Float} (finite : x.isFinite = true) : (round x).isFinite = true := by
  have canonical : Canonical x.toModel.unpack := canonical_unpack _
  unfold round
  split
  next negative significand exponent read =>
    split
    · exact finite
    next fractional =>
      have bounded : significand < 2 ^ 53 := by
        unfold parts at read
        cases unpacked : x.toModel.unpack with
        | notANumber => rw [unpacked] at read; cases read
        | infinity sign => rw [unpacked] at read; cases read
        | zero sign =>
            rw [unpacked] at read
            cases read
            exact Nat.two_pow_pos 53
        | finite sign significand exponent positive =>
            rw [unpacked] at read canonical
            cases read
            cases canonical with
            | finite _ _ _ _ form => exact form.bounded
      have unit : 0 < fractionUnit exponent := Nat.two_pow_pos _
      have small : (2 * significand + fractionUnit exponent) / (2 * fractionUnit exponent) < 2 ^ 53 := by
        rw [Nat.div_lt_iff_lt_mul (by omega)]
        omega
      simp only
      split
      · exact isFinite_neg (isFinite_ofNat small)
      · exact isFinite_ofNat small
  · exact finite

end HostTimeline.Binary64
