import HostTimeline.Proofs.Number.Finite

/-!
Whole numbers.  Integers are converted in order (`ofInt_le`), and small natural numbers exactly
(`ticks_ofNat`), so a finite number is rounded to the nearest multiple of one (`ticks_round`),
and rounding keeps the order (`round_le`).
-/

namespace HostTimeline.Binary64

open Float.Model Float.Model.UnpackedFloat

theorem mul_two_pow_lt_infinite {value : Nat} (bounded : value < 2 ^ 53) :
    value * 2 ^ 1074 < infiniteMagnitude :=
  Nat.lt_of_lt_of_le (mul_two_pow_lt bounded 1074) (two_pow_le_infinite (by decide))

theorem ticks_mul_one {x : Float} {value : Nat} (number : x.toModel.unpack ≠ .notANumber)
    (bounded : value < 2 ^ 53) (ticked : ticks x = (value * 2 ^ 1074 : Nat)) :
    ticks (x * Float.ofBits 0x3FF0000000000000) = (value * 2 ^ 1074 : Nat) := by
  have small := mul_two_pow_lt_infinite bounded
  have canonical : Canonical x.toModel.unpack := canonical_unpack _
  unfold ticks at ticked ⊢
  rw [unpack_mul_one]
  cases unpacked : x.toModel.unpack with
  | notANumber => exact absurd unpacked number
  | infinity sign =>
      have size := congrArg Int.natAbs ticked
      rw [unpacked, units, natAbs_apply, Int.natAbs_natCast] at size
      exact absurd size (Nat.ne_of_gt small)
  | zero sign =>
      have nothing : UnpackedFloat.pack .binary64 (UnpackedFloat.mul .binary64 (.zero sign)
          (.finite .positive (2 ^ 52) (-52) (by decide))) =
            packedZero .binary64 (sign * .positive) := rfl
      rw [unpacked, units] at ticked
      rw [nothing, (units_packedZero (sign * .positive)).value]
      exact ticked
  | finite sign significand exponent positive =>
      rw [unpacked] at canonical ticked
      cases canonical with
      | finite _ _ _ _ form =>
          have size := congrArg Int.natAbs ticked
          rw [units, natAbs_apply, Int.natAbs_natCast] at size
          rw [units, size] at ticked
          rw [(units_mul_one sign positive form).value, size, nearestUnits_exact bounded 1074,
            Nat.min_eq_left (Nat.le_of_lt small), mul_positive]
          exact ticked

theorem ticks_ofNat {value : Nat} (bounded : value < 2 ^ 53) :
    ticks (Float.ofNat value) = (value * 2 ^ 1074 : Nat) := by
  obtain ⟨number, converted⟩ := units_toFloat bounded
  rw [nearestUnits_exact bounded 1074,
    Nat.min_eq_left (Nat.le_of_lt (mul_two_pow_lt_infinite bounded))] at converted
  rw [ofNat_eq_mul_one bounded]
  exact ticks_mul_one number bounded converted

theorem neg_apply (sign : Sign) (value : Nat) : (-sign).apply value = -sign.apply value := by
  cases sign
  · exact (Int.neg_neg value).symm
  · rfl

theorem ticks_neg (x : Float) : ticks (-x) = -ticks x := by
  change units (UnpackedFloat.unpack .binary64
    (UnpackedFloat.pack .binary64 x.toModel.unpack.neg)) = -units x.toModel.unpack
  have canonical : Canonical x.toModel.unpack := canonical_unpack _
  cases unpacked : x.toModel.unpack with
  | notANumber => rfl
  | infinity sign => exact (units_packedInfinity (-sign)).value.trans (neg_apply sign _)
  | zero sign => exact (units_packedZero (-sign)).value
  | finite sign significand exponent positive =>
      rw [unpacked] at canonical
      cases canonical with
      | finite _ _ _ _ form =>
          have packed := units_pack (-sign) positive form.bounded form.least form.normal
          rw [Nat.min_eq_left (Nat.le_of_lt form.magnitude_lt_infinity), neg_apply] at packed
          exact packed.value

theorem roundedUnits_ones {value : Nat} (bounded : value < 2 ^ 53) :
    roundedUnits (value * 2 ^ 1074 : Nat) = (value * 2 ^ 1074 : Nat) := by
  refine (roundedUnits_apply .positive _).trans ?_
  rw [nearestUnits_exact bounded 1074,
    Nat.min_eq_left (Nat.le_of_lt (mul_two_pow_lt_infinite bounded))]
  rfl

theorem ticks_ofInt (value : Int) :
    ticks (Float.ofInt value) = roundedUnits (value * (2 ^ 1074 : Nat)) := by
  have converted (value : Nat) :
      ticks (Float.ofNat value) = roundedUnits (value * 2 ^ 1074 : Nat) := by
    by_cases bounded : value < 2 ^ 53
    · rw [ticks_ofNat bounded, roundedUnits_ones bounded]
    · exact (ticks_ofNat_of_large (by omega)).2
  cases value with
  | ofNat value => exact converted value
  | negSucc value =>
      have negated : Int.negSucc value * (2 ^ 1074 : Nat) =
          Sign.negative.apply ((value + 1) * 2 ^ 1074 : Nat) := by
        rw [Int.negSucc_eq, Int.neg_mul]
        rfl
      rw [negated, roundedUnits_apply]
      refine (ticks_neg _).trans (congrArg Neg.neg ?_)
      exact (converted (value + 1)).trans (roundedUnits_apply .positive _)

theorem ticks_zero : ticks Scalar.zero = 0 :=
  (ticks_ofInt 0).trans (by rw [Int.zero_mul, roundedUnits_zero])

theorem isFinite_zero : (Scalar.zero : Float).isFinite = true := by
  change (Float.ofNat 0).isFinite = true
  exact isFinite_ofNat (by decide)

theorem isFinite_ofInt {value : Int} {bits : Nat} (bounded : value.natAbs < 2 ^ bits)
    (narrow : bits ≤ 1023) : (Float.ofInt value).isFinite = true := by
  obtain ⟨sign, size, rfl⟩ := exists_apply value
  rw [natAbs_apply] at bounded
  refine isFinite_of_units_lt (isNaN_eq_false_iff.mp (isNaN_ofInt _)) ?_
  change (ticks _).natAbs < _
  rw [ticks_ofInt, apply_mul, roundedUnits_apply, natAbs_apply]
  exact Nat.lt_of_le_of_lt (Nat.min_le_left _ _) (Nat.lt_of_lt_of_le
    (nearestUnits_lt_two_pow (mul_two_pow_lt bounded 1074)) (two_pow_le_infinite (by omega)))

theorem ofInt_le {low high : Int} (le : low ≤ high) : Float.ofInt low ≤ Float.ofInt high := by
  refine le_iff.mpr ⟨isNaN_ofInt low, isNaN_ofInt high, ?_⟩
  rw [ticks_ofInt, ticks_ofInt]
  exact roundedUnits_le (Int.mul_le_mul_of_nonneg_right le (Int.natCast_nonneg _))

/-- How many ones a number of units is nearest to; halves count as a whole one. -/
def nearestOnes (value : Nat) : Nat :=
  (2 * value + 2 ^ 1074) / (2 * 2 ^ 1074)

theorem nearestOnes_le {low high : Nat} (le : low ≤ high) : nearestOnes low ≤ nearestOnes high :=
  Nat.div_le_div_right (Nat.add_le_add_right (Nat.mul_le_mul_left 2 le) _)

theorem nearest_multiple (value : Nat) {unit : Nat} (positive : 0 < unit) :
    (2 * (value * unit) + unit) / (2 * unit) = value := by
  have whole : 2 * (value * unit) + unit = unit + 2 * unit * value := by ring
  rw [whole, Nat.add_mul_div_left _ _ (by omega), Nat.div_eq_of_lt (by omega), Nat.zero_add]

theorem nearestOnes_ones (value : Nat) : nearestOnes (value * 2 ^ 1074) = value := by
  unfold nearestOnes
  exact nearest_multiple value (by positivity)

theorem nearestOnes_magnitude {exponent : Int} (least : -1074 ≤ exponent) (fractional : exponent < 0)
    (significand : Nat) : nearestOnes (magnitude significand exponent) =
      (2 * significand + fractionUnit exponent) / (2 * fractionUnit exponent) := by
  have one : 2 ^ 1074 = fractionUnit exponent * 2 ^ (exponent + 1074).toNat := by
    change _ = 2 ^ (-exponent).toNat * _
    rw [← pow_add]
    congr 1
    omega
  unfold nearestOnes magnitude
  rw [one, ← Nat.mul_assoc, ← Nat.mul_assoc, ← Nat.add_mul,
    Nat.mul_div_mul_right _ _ (Nat.two_pow_pos _)]

theorem magnitude_of_whole {exponent : Int} (whole : 0 ≤ exponent) (significand : Nat) :
    magnitude significand exponent = significand * 2 ^ exponent.toNat * 2 ^ 1074 := by
  have split : (exponent + 1074).toNat = exponent.toNat + 1074 := by omega
  rw [magnitude, split, pow_add, Nat.mul_assoc]

/-- The units of a number rounded to ones, halves away from zero. -/
def wholeUnits (value : Int) : Int :=
  if 0 ≤ value then (nearestOnes value.toNat * 2 ^ 1074 : Nat)
  else -(nearestOnes (-value).toNat * 2 ^ 1074 : Nat)

theorem wholeUnits_eq (value : Int) :
    wholeUnits value = mirrored (fun magnitude => nearestOnes magnitude * 2 ^ 1074) value :=
  rfl

theorem wholeUnits_le {low high : Int} (le : low ≤ high) : wholeUnits low ≤ wholeUnits high := by
  rw [wholeUnits_eq, wholeUnits_eq]
  exact mirrored_le (fun le => Nat.mul_le_mul_right _ (nearestOnes_le le)) le

theorem nearestOnes_zero : nearestOnes 0 * 2 ^ 1074 = 0 := by
  have nothing := nearestOnes_ones 0
  rw [Nat.zero_mul] at nothing
  rw [nothing, Nat.zero_mul]

theorem wholeUnits_apply (sign : Sign) (value : Nat) :
    wholeUnits (sign.apply value) = sign.apply (nearestOnes value * 2 ^ 1074 : Nat) := by
  rw [wholeUnits_eq]
  refine mirrored_apply ?_ sign value
  exact nearestOnes_zero

theorem wholeUnits_zero : wholeUnits 0 = 0 := by
  have zero := wholeUnits_apply .positive 0
  rwa [nearestOnes_zero] at zero

theorem ticks_nearest (sign : Sign) {significand : Nat} {exponent : Int}
    (form : IsCanonical significand exponent) (fractional : exponent < 0) :
    let nearest := Float.ofNat
      ((2 * significand + fractionUnit exponent) / (2 * fractionUnit exponent))
    ticks (if isNegative sign then -nearest else nearest) =
      sign.apply (nearestOnes (magnitude significand exponent) * 2 ^ 1074 : Nat) := by
  have bounded := form.bounded
  have unit : 0 < fractionUnit exponent := Nat.two_pow_pos _
  have small : (2 * significand + fractionUnit exponent) / (2 * fractionUnit exponent) < 2 ^ 53 := by
    rw [Nat.div_lt_iff_lt_mul (by omega)]
    omega
  rw [nearestOnes_magnitude form.least fractional]
  cases sign
  · exact (ticks_neg _).trans (congrArg Neg.neg (ticks_ofNat small))
  · exact ticks_ofNat small

theorem ticks_round {x : Float} (finite : x.isFinite = true) :
    ticks (round x) = wholeUnits (ticks x) := by
  change x.toModel.unpack.isFinite = true at finite
  have canonical : Canonical x.toModel.unpack := canonical_unpack _
  have read : ticks x = units x.toModel.unpack := rfl
  unfold round parts
  rw [read]
  cases unpacked : x.toModel.unpack with
  | notANumber => rw [unpacked] at finite; cases finite
  | infinity sign => rw [unpacked] at finite; cases finite
  | zero sign =>
      have zero : ticks x = 0 := congrArg units unpacked
      simp only [units, if_pos (Int.le_refl 0), wholeUnits_zero, zero]
  | finite sign significand exponent positive =>
      rw [unpacked] at canonical
      cases canonical with
      | finite _ _ _ _ form =>
          simp only
          rw [units, wholeUnits_apply sign]
          split
          next whole =>
            have same : ticks x = sign.apply (magnitude significand exponent) :=
              congrArg units unpacked
            rw [same, magnitude_of_whole whole, nearestOnes_ones]
          next fractional => exact ticks_nearest sign form (by omega)

theorem round_le {x y : Float} (finite : x.isFinite = true) (other : y.isFinite = true)
    (le : x ≤ y) : round x ≤ round y := by
  refine le_iff.mpr ⟨isNaN_of_isFinite (isFinite_round finite),
    isNaN_of_isFinite (isFinite_round other), ?_⟩
  rw [ticks_round finite, ticks_round other]
  exact wholeUnits_le (le_iff.mp le).2.2

end HostTimeline.Binary64
