import HostTimeline.Proofs.Number.Binary64

/-!
Rounding to binary64 in units of the least positive number.  A whole number of units is
rounded to 53 significant bits (`nearestUnits`), which is monotone across the powers of two
(`nearestUnits_le`), and this is what the arithmetic of floats does (`units_round`).
Negative numbers mirror positive ones (`mirrored`), which keeps functions of magnitudes
monotone (`mirrored_le`), rounding among them (`roundedUnits_le`).
-/

namespace HostTimeline.Binary64

open Float.Model Float.Model.UnpackedFloat

/-- A multiple of `2 ^ shift` as a number of these, the nearest one; the even one of two
that are equally near. -/
def halfEven (value shift : Nat) : Nat :=
  if 2 * (value % 2 ^ shift) < 2 ^ shift then value / 2 ^ shift
  else if 2 * (value % 2 ^ shift) = 2 ^ shift then value / 2 ^ shift + value / 2 ^ shift % 2
  else value / 2 ^ shift + 1

theorem le_halfEven (value shift : Nat) : value / 2 ^ shift ≤ halfEven value shift := by
  unfold halfEven
  split
  · exact Nat.le_refl _
  · split <;> omega

theorem halfEven_le_succ (value shift : Nat) : halfEven value shift ≤ value / 2 ^ shift + 1 := by
  unfold halfEven
  split
  · exact Nat.le_succ _
  · split <;> omega

theorem halfEven_le {low high : Nat} (le : low ≤ high) (shift : Nat) :
    halfEven low shift ≤ halfEven high shift := by
  rcases Nat.eq_or_lt_of_le (Nat.div_le_div_right (c := 2 ^ shift) le) with same | less
  · have remainders : low % 2 ^ shift ≤ high % 2 ^ shift := by
      have lowParts := Nat.div_add_mod low (2 ^ shift)
      have highParts := Nat.div_add_mod high (2 ^ shift)
      rw [same] at lowParts
      omega
    unfold halfEven
    rw [same]
    split
    · split
      · exact Nat.le_refl _
      · split <;> omega
    · rw [if_neg (show ¬ 2 * (high % 2 ^ shift) < 2 ^ shift by omega)]
      split <;> split <;> omega
  · calc halfEven low shift ≤ low / 2 ^ shift + 1 := halfEven_le_succ low shift
      _ ≤ high / 2 ^ shift := less
      _ ≤ halfEven high shift := le_halfEven high shift

theorem halfEven_scale (value shift scale : Nat) :
    halfEven (value * 2 ^ scale) (shift + scale) = halfEven value shift := by
  have positive : 0 < 2 ^ scale := Nat.two_pow_pos scale
  have quotient : value * 2 ^ scale / (2 ^ shift * 2 ^ scale) = value / 2 ^ shift :=
    Nat.mul_div_mul_right _ _ positive
  have remainder : value * 2 ^ scale % (2 ^ shift * 2 ^ scale) = value % 2 ^ shift * 2 ^ scale :=
    Nat.mul_mod_mul_right _ _ _
  unfold halfEven
  rw [pow_add, quotient, remainder, ← Nat.mul_assoc]
  simp only [Nat.mul_lt_mul_right positive, Nat.mul_left_inj (Nat.ne_of_gt positive)]

@[simp]
theorem halfEven_zero_shift (value : Nat) : halfEven value 0 = value := by
  simp [halfEven, Nat.mod_one]

/-- The residual bits tell where the dropped part lies relative to one half. -/
theorem repeat_shiftRightOne (value shift : Nat) :
    (shift + 1).repeat ExtendedMantissa.shiftRightOne ⟨value, false, false⟩ =
      ⟨value / 2 ^ (shift + 1), value / 2 ^ shift % 2 != 0, value % 2 ^ shift != 0⟩ := by
  induction shift with
  | zero => simp [Nat.repeat, ExtendedMantissa.shiftRightOne, Nat.mod_one]
  | succ shift ih =>
      have low : value % 2 ^ (shift + 1) = 2 ^ shift * (value / 2 ^ shift % 2) + value % 2 ^ shift := by
        rw [Nat.pow_succ, Nat.mod_mul]
        omega
      have none : value % 2 ^ (shift + 1) = 0 ↔
          value / 2 ^ shift % 2 = 0 ∧ value % 2 ^ shift = 0 := by
        rw [low, Nat.add_eq_zero_iff, Nat.mul_eq_zero]
        have positive : 2 ^ shift ≠ 0 := Nat.ne_of_gt (Nat.two_pow_pos shift)
        tauto
      rw [Nat.repeat, ih]
      simp only [ExtendedMantissa.shiftRightOne]
      rw [Nat.div_div_eq_div_mul, ← Nat.pow_succ]
      congr 1
      rw [Bool.eq_iff_iff]
      simp only [Bool.or_eq_true, bne_iff_ne, ne_eq, none]
      tauto

theorem roundedMantissa_shiftRight (value shift : Nat) :
    (shift.repeat ExtendedMantissa.shiftRightOne ⟨value, false, false⟩).roundedMantissa =
      halfEven value shift := by
  cases shift with
  | zero => rw [halfEven_zero_shift]; rfl
  | succ shift =>
      have low : value % 2 ^ (shift + 1) = 2 ^ shift * (value / 2 ^ shift % 2) + value % 2 ^ shift := by
        rw [Nat.pow_succ, Nat.mod_mul]
        omega
      have bound : value % 2 ^ shift < 2 ^ shift := Nat.mod_lt _ (Nat.two_pow_pos shift)
      have double : 2 ^ (shift + 1) = 2 ^ shift * 2 := Nat.pow_succ 2 shift
      rw [repeat_shiftRightOne]
      unfold ExtendedMantissa.roundedMantissa halfEven
      rcases Nat.mod_two_eq_zero_or_one (value / 2 ^ shift) with half | half
      · rw [half, Nat.mul_zero, Nat.zero_add] at low
        rw [half, if_pos (by omega)]
        cases value % 2 ^ shift <;> rfl
      · rw [half, Nat.mul_one] at low
        rw [half, if_neg (by omega)]
        cases rest : value % 2 ^ shift with
        | zero =>
            rw [if_pos (by omega)]
            rfl
        | succ rest =>
            rw [if_neg (by omega)]
            rfl

/-- A number of units rounded to 53 significant bits. -/
def nearestUnits (value : Nat) : Nat :=
  halfEven value (value.log2 - 52) * 2 ^ (value.log2 - 52)

theorem two_pow_split {exponent : Nat} (large : 52 ≤ exponent) :
    2 ^ exponent = 2 ^ 52 * 2 ^ (exponent - 52) := by
  rw [← pow_add]
  congr 1
  omega

theorem two_pow_le_halfEven {value : Nat} (positive : 0 < value) (large : 52 ≤ value.log2) :
    2 ^ 52 ≤ halfEven value (value.log2 - 52) := by
  have low : 2 ^ value.log2 ≤ value := Nat.log2_self_le (by omega)
  have quotient : 2 ^ 52 ≤ value / 2 ^ (value.log2 - 52) := by
    rw [Nat.le_div_iff_mul_le (Nat.two_pow_pos _), ← two_pow_split large]
    exact low
  exact Nat.le_trans quotient (le_halfEven _ _)

theorem nearestUnits_of_log2_le {value : Nat} (small : value.log2 ≤ 52) : nearestUnits value = value := by
  have whole : value.log2 - 52 = 0 := by omega
  rw [nearestUnits, whole, halfEven_zero_shift, pow_zero, Nat.mul_one]

theorem two_pow_log2_le_nearestUnits {value : Nat} (positive : 0 < value) :
    2 ^ value.log2 ≤ nearestUnits value := by
  rcases Nat.le_total value.log2 52 with small | large
  · rw [nearestUnits_of_log2_le small]
    exact Nat.log2_self_le (by omega)
  · rw [two_pow_split large]
    exact Nat.mul_le_mul_right _ (two_pow_le_halfEven positive large)

theorem halfEven_le_two_pow (value : Nat) : halfEven value (value.log2 - 52) ≤ 2 ^ 53 := by
  have high : value < 2 ^ (value.log2 + 1) := Nat.lt_log2_self
  by_cases small : value.log2 ≤ 52
  · have whole : value.log2 - 52 = 0 := by omega
    have bound : 2 ^ (value.log2 + 1) ≤ 2 ^ 53 := Nat.pow_le_pow_right (by decide) (by omega)
    rw [whole, halfEven_zero_shift]
    omega
  · have split : 2 ^ (value.log2 + 1) = 2 ^ 53 * 2 ^ (value.log2 - 52) := by
      rw [← pow_add]
      congr 1
      omega
    have quotient : value / 2 ^ (value.log2 - 52) < 2 ^ 53 := by
      rw [Nat.div_lt_iff_lt_mul (Nat.two_pow_pos _), ← split]
      exact high
    exact Nat.le_trans (halfEven_le_succ _ _) quotient

theorem nearestUnits_le_two_pow (value : Nat) (large : 52 ≤ value.log2) :
    nearestUnits value ≤ 2 ^ (value.log2 + 1) := by
  have split : 2 ^ (value.log2 + 1) = 2 ^ 53 * 2 ^ (value.log2 - 52) := by
    rw [← pow_add]
    congr 1
    omega
  rw [split]
  exact Nat.mul_le_mul_right _ (halfEven_le_two_pow value)

theorem nearestUnits_le {low high : Nat} (le : low ≤ high) : nearestUnits low ≤ nearestUnits high := by
  rcases Nat.eq_zero_or_pos low with zero | positive
  · subst zero
    exact Nat.zero_le _
  · have lowPower : 2 ^ low.log2 ≤ low := Nat.log2_self_le (by omega)
    have highPower : high < 2 ^ (high.log2 + 1) := Nat.lt_log2_self
    have logs : low.log2 ≤ high.log2 := by
      have less := Nat.lt_of_le_of_lt (Nat.le_trans lowPower le) highPower
      have exponents := (Nat.pow_lt_pow_iff_right (by decide)).mp less
      omega
    rcases Nat.eq_or_lt_of_le logs with same | less
    · unfold nearestUnits
      rw [same]
      exact Nat.mul_le_mul_right _ (halfEven_le le _)
    · have above := two_pow_log2_le_nearestUnits (show 0 < high by omega)
      by_cases small : low.log2 ≤ 52
      · rw [nearestUnits_of_log2_le small]
        have lowBound : low < 2 ^ (low.log2 + 1) := Nat.lt_log2_self
        have power : 2 ^ (low.log2 + 1) ≤ 2 ^ high.log2 := Nat.pow_le_pow_right (by decide) less
        omega
      · calc nearestUnits low ≤ 2 ^ (low.log2 + 1) := nearestUnits_le_two_pow low (by omega)
          _ ≤ 2 ^ high.log2 := Nat.pow_le_pow_right (by decide) less
          _ ≤ nearestUnits high := above

theorem toNat_packComponents (sign : Sign) (exponent : BitVec 11) (mantissa : BitVec 52) :
    (packComponents .binary64 sign exponent mantissa).toNat =
      sign.toBitVec.toNat * 2 ^ 63 + (exponent.toNat * 2 ^ 52 + mantissa.toNat) := by
  change ((sign.toBitVec ++ exponent) ++ mantissa).toNat = _
  rw [BitVec.toNat_append, ← Nat.shiftLeft_add_eq_or_of_lt mantissa.isLt, BitVec.toNat_append,
    ← Nat.shiftLeft_add_eq_or_of_lt exponent.isLt, Nat.shiftLeft_eq, Nat.shiftLeft_eq]
  omega

theorem magnitudeOfBits_fields (exponent : Nat) {mantissa : Nat} (bound : mantissa < 2 ^ 52) :
    magnitudeOfBits (exponent * 2 ^ 52 + mantissa) =
      if exponent = 0 then mantissa else (2 ^ 52 + mantissa) * 2 ^ (exponent - 1) := by
  have high : (exponent * 2 ^ 52 + mantissa) / 2 ^ 52 = exponent := by omega
  have low : (exponent * 2 ^ 52 + mantissa) % 2 ^ 52 = mantissa := by omega
  unfold magnitudeOfBits
  rw [high, low]
  split
  next zero => rw [zero, Nat.zero_mul, Nat.zero_add]
  next => rfl

theorem unpack_packComponents_ne (sign : Sign) {exponent : BitVec 11} {mantissa : BitVec 52}
    (special : exponent = -1#_ → mantissa = 0#_) :
    UnpackedFloat.unpack .binary64 (packComponents .binary64 sign exponent mantissa) ≠
      .notANumber := by
  unfold UnpackedFloat.unpack
  simp only [unpackExponent_packComponents, unpackMantissa_packComponents]
  split
  next full => simp [special full]
  next => split <;> (try split) <;> simp

theorem mul_positive (sign : Sign) : sign * .positive = sign := by
  cases sign <;> rfl

/-- Bits of a number of so many units. -/
structure HasUnits (bits : BitVec Format.binary64.numBits) (value : Int) : Prop where
  number : UnpackedFloat.unpack .binary64 bits ≠ .notANumber
  value : units (UnpackedFloat.unpack .binary64 bits) = value

theorem units_packComponents (sign : Sign) {exponent : BitVec 11} {mantissa : BitVec 52}
    (special : exponent = -1#_ → mantissa = 0#_) :
    HasUnits (packComponents .binary64 sign exponent mantissa)
      (sign.apply (magnitudeOfBits (exponent.toNat * 2 ^ 52 + mantissa.toNat))) := by
  refine ⟨unpack_packComponents_ne sign special, ?_⟩
  have exponentBound := exponent.isLt
  have mantissaBound := mantissa.isLt
  rw [units_unpack (unpack_packComponents_ne sign special), toNat_packComponents]
  cases sign
  · have bit : Sign.negative.toBitVec.toNat = 1 := rfl
    rw [bit, if_neg (by omega), Nat.one_mul, Nat.add_sub_cancel_left]
    rfl
  · have bit : Sign.positive.toBitVec.toNat = 0 := rfl
    rw [bit, if_pos (by omega), Nat.zero_mul, Nat.zero_add]
    rfl

theorem units_packedZero (sign : Sign) : HasUnits (packedZero .binary64 sign) 0 := by
  have nothing : magnitudeOfBits ((0#11).toNat * 2 ^ 52 + (0#52).toNat) = 0 :=
    magnitudeOfBits_fields 0 (Nat.two_pow_pos 52)
  have zero := units_packComponents sign (show 0#11 = -1#_ → 0#52 = 0#_ from fun _ => rfl)
  rw [nothing] at zero
  refine ⟨zero.number, zero.value.trans ?_⟩
  cases sign <;> rfl

theorem units_packedInfinity (sign : Sign) :
    HasUnits (packedInfinity .binary64 sign) (sign.apply infiniteMagnitude) := by
  have field : (-1#11 : BitVec 11).toNat = 2047 := rfl
  have low : (0#52).toNat = 0 := rfl
  have scale : (2047 : Nat) - 1 = ((972 : Int) + 1074).toNat := rfl
  have infinite := units_packComponents sign (show -1#11 = -1#_ → 0#52 = 0#_ from fun _ => rfl)
  rw [field, low, magnitudeOfBits_fields 2047 (Nat.two_pow_pos 52), if_neg (by decide),
    Nat.add_zero, scale] at infinite
  exact infinite

theorem units_pack_normal (sign : Sign) {significand : Nat} {exponent : Int}
    (canonical : IsCanonical significand exponent) (normal : 2 ^ 52 ≤ significand) :
    HasUnits (packComponents .binary64 sign (BitVec.ofNat 11 (exponent + 1023 + 52).toNat)
      (BitVec.ofNat 52 significand)) (sign.apply (magnitude significand exponent)) := by
  obtain ⟨bounded, least, most, _⟩ := canonical
  have field : (BitVec.ofNat 11 (exponent + 1023 + 52).toNat).toNat =
      (exponent + 1023 + 52).toNat := Nat.mod_eq_of_lt (by omega)
  have special : BitVec.ofNat 11 (exponent + 1023 + 52).toNat = -1#_ →
      BitVec.ofNat 52 significand = 0#_ := by
    intro full
    have same := congrArg BitVec.toNat full
    rw [field] at same
    change _ = 2047 at same
    omega
  have low : (BitVec.ofNat 52 significand).toNat = significand % 2 ^ 52 := rfl
  have scale : (exponent + 1023 + 52).toNat - 1 = (exponent + 1074).toNat := by omega
  have whole : 2 ^ 52 + significand % 2 ^ 52 = significand := by omega
  have packed := units_packComponents sign special
  rw [field, magnitudeOfBits_fields _ (low ▸ Nat.mod_lt _ (Nat.two_pow_pos 52)),
    if_neg (by omega), low, scale, whole] at packed
  exact packed

theorem units_pack_subnormal (sign : Sign) {significand : Nat} (small : significand < 2 ^ 52) :
    HasUnits (packComponents .binary64 sign 0#11 (BitVec.ofNat 52 significand))
      (sign.apply (magnitude significand (-1074))) := by
  have special : 0#11 = -1#_ → BitVec.ofNat 52 significand = 0#_ := by
    intro full
    exact absurd full (by decide)
  have low : (BitVec.ofNat 52 significand).toNat = significand := Nat.mod_eq_of_lt small
  have field : (0#11 : BitVec 11).toNat = 0 := rfl
  have packed := units_packComponents sign special
  rw [field, magnitudeOfBits_fields 0 (low.symm ▸ small), if_pos rfl, low] at packed
  have unscaled : magnitude significand (-1074) = significand := Nat.mul_one significand
  rwa [unscaled]

theorem magnitude_ge_infinite {significand : Nat} {exponent : Int} (normal : 2 ^ 52 ≤ significand)
    (huge : 972 ≤ exponent) : infiniteMagnitude ≤ magnitude significand exponent :=
  Nat.mul_le_mul normal (Nat.pow_le_pow_right (by decide) (by omega))

/-- Packing keeps the value of a rounded number that is not too large, and gives an
infinity for one that is. -/
theorem units_pack (sign : Sign) {significand : Nat} {exponent : Int} (positive : 0 < significand)
    (bounded : significand < 2 ^ 53) (least : -1074 ≤ exponent)
    (normal : 2 ^ 52 ≤ significand ∨ exponent = -1074) :
    HasUnits (UnpackedFloat.pack .binary64 (.finite sign significand exponent positive))
      (sign.apply (min (magnitude significand exponent) infiniteMagnitude : Nat)) := by
  have bias : ((Format.binary64.exponentBias : Nat) : Int) = 1023 := rfl
  have width : ((Format.binary64.mantissaBitsWithoutImplicit : Nat) : Int) = 52 := rfl
  have range : 2 ^ Format.binary64.exponentBits = 2048 := rfl
  have bits : Format.binary64.mantissaBits = 53 := rfl
  unfold UnpackedFloat.pack
  simp only [bias, width, range, bits]
  split
  next huge =>
    rw [Nat.min_eq_right (magnitude_ge_infinite (normal.resolve_right (by omega))
      (show 972 ≤ exponent by omega))]
    exact units_packedInfinity sign
  next moderate =>
    have canonical : IsCanonical significand exponent := ⟨bounded, least, by omega, normal⟩
    have log : significand.log2 + 1 = 53 ↔ 2 ^ 52 ≤ significand := by
      rw [← Nat.le_log2 (by omega)]
      have high := (Nat.log2_lt (show significand ≠ 0 by omega)).mpr bounded
      omega
    rw [Nat.min_eq_left (Nat.le_of_lt canonical.magnitude_lt_infinity)]
    simp only [log]
    split
    next isNormal => exact units_pack_normal sign canonical isNormal
    next subnormal =>
      rw [normal.resolve_left subnormal]
      exact units_pack_subnormal sign (Nat.not_le.mp subnormal)

theorem log2_mul_two_pow {value : Nat} (positive : 0 < value) (scale : Nat) :
    (value * 2 ^ scale).log2 = value.log2 + scale := by
  have scaled : value * 2 ^ scale ≠ 0 := Nat.ne_of_gt (Nat.mul_pos positive (Nat.two_pow_pos _))
  obtain ⟨low, high⟩ := (Nat.log2_eq_iff (Nat.ne_of_gt positive)).mp rfl
  refine (Nat.log2_eq_iff scaled).mpr ⟨?_, ?_⟩
  · rw [pow_add]
    exact Nat.mul_le_mul_right _ low
  · rw [show value.log2 + scale + 1 = value.log2 + 1 + scale by omega, pow_add]
    exact Nat.mul_lt_mul_of_pos_right high (Nat.two_pow_pos _)

/-- A number of no more than 53 significant bits needs no rounding. -/
theorem nearestUnits_exact {significand : Nat} (bounded : significand < 2 ^ 53) (scale : Nat) :
    nearestUnits (significand * 2 ^ scale) = significand * 2 ^ scale := by
  rcases Nat.eq_zero_or_pos significand with zero | positive
  · rw [zero, Nat.zero_mul]
    exact nearestUnits_of_log2_le (by decide)
  · have log : significand.log2 < 53 := (Nat.log2_lt (by omega)).mpr bounded
    have logs := log2_mul_two_pow positive scale
    generalize shifted : (significand * 2 ^ scale).log2 - 52 = shift
    have split : significand * 2 ^ scale = significand * 2 ^ (scale - shift) * 2 ^ shift := by
      rw [Nat.mul_assoc, ← pow_add]
      congr 2
      omega
    have kept := halfEven_scale (significand * 2 ^ (scale - shift)) 0 shift
    rw [Nat.zero_add, halfEven_zero_shift] at kept
    rw [nearestUnits, shifted]
    rw [split, kept]

theorem nearestUnits_infinite : nearestUnits infiniteMagnitude = infiniteMagnitude := by
  unfold infiniteMagnitude magnitude
  rw [nearestUnits_exact (by decide)]

theorem shiftToTargetExponent_of_lt {mantissa : Nat} {exponent : Int} (positive : 0 < mantissa)
    (bounded : mantissa < 2 ^ 53) (least : -1074 ≤ exponent) :
    shiftToTargetExponent .binary64 mantissa exponent .exact =
      (⟨mantissa, false, false⟩, exponent) := by
  have log : mantissa.log2 < 53 := (Nat.log2_lt (by omega)).mpr bounded
  have minimum : Format.binary64.minExponent = -1074 := rfl
  have bits : ((Format.binary64.mantissaBits : Nat) : Int) = 53 := rfl
  have none : (Format.binary64.targetExponent (totalExponent mantissa exponent) - exponent).toNat =
      0 := by
    unfold Format.targetExponent totalExponent
    rw [minimum, bits]
    omega
  unfold shiftToTargetExponent shiftToExponent
  simp only [none]
  exact Prod.ext rfl (Int.add_zero exponent)

theorem shiftToTargetExponent_of_full {exponent : Int} (least : -1074 ≤ exponent) :
    shiftToTargetExponent .binary64 (2 ^ 53) exponent .exact =
      (⟨2 ^ 52, false, false⟩, exponent + 1) := by
  have log : (2 ^ 53 : Nat).log2 = 53 := Nat.log2_two_pow
  have minimum : Format.binary64.minExponent = -1074 := rfl
  have bits : ((Format.binary64.mantissaBits : Nat) : Int) = 53 := rfl
  have once : (Format.binary64.targetExponent (totalExponent (2 ^ 53) exponent) - exponent).toNat =
      1 := by
    unfold Format.targetExponent totalExponent
    rw [minimum, bits, log]
    omega
  unfold shiftToTargetExponent shiftToExponent
  simp only [once]
  rfl

theorem roundWithAccuracy_eq (sign : Sign) {mantissa rounded : Nat} {exponent shifted last : Int}
    {final : ExtendedMantissa}
    (first : (shiftToTargetExponent .binary64 mantissa exponent .exact).1.roundedMantissa = rounded)
    (firstExponent : (shiftToTargetExponent .binary64 mantissa exponent .exact).2 = shifted)
    (second : shiftToTargetExponent .binary64 rounded shifted .exact = (final, last))
    (positive : 0 < final.mantissa) :
    roundWithAccuracy .binary64 sign mantissa exponent .exact =
      .finite sign final.mantissa last positive := by
  unfold roundWithAccuracy
  simp only [first, firstExponent, second]
  exact dif_neg (Nat.ne_of_gt positive)

/-- The first shift of rounding leaves what `nearestUnits` leaves. -/
theorem roundedMantissa_shiftToTargetExponent {mantissa value up down : Nat} {exponent : Int}
    (mantissaPositive : 0 < mantissa) (valuePositive : 0 < value)
    (fits : 2 ^ 52 ≤ mantissa ∨ exponent ≤ -1074)
    (whole : mantissa * 2 ^ up = value * 2 ^ down) (scale : exponent + 1074 = (up : Int) - down) :
    (shiftToTargetExponent .binary64 mantissa exponent .exact).1.roundedMantissa =
        halfEven value (value.log2 - 52) ∧
      (shiftToTargetExponent .binary64 mantissa exponent .exact).2 =
        ((value.log2 - 52 : Nat) : Int) - 1074 := by
  have logs : mantissa.log2 + up = value.log2 + down := by
    rw [← log2_mul_two_pow mantissaPositive, ← log2_mul_two_pow valuePositive, whole]
  have fitsLog : 52 ≤ mantissa.log2 ∨ exponent ≤ -1074 :=
    fits.imp_left fun large => (Nat.le_log2 (by omega)).mpr large
  generalize shifted : value.log2 - 52 = shift
  have least : Format.binary64.minExponent = -1074 := rfl
  have bits : ((Format.binary64.mantissaBits : Nat) : Int) = 53 := rfl
  have target : Format.binary64.targetExponent (totalExponent mantissa exponent) = shift - 1074 := by
    unfold Format.targetExponent totalExponent
    rw [least, bits]
    omega
  have steps : ((shift : Int) - 1074 - exponent).toNat = shift + down - up := by omega
  have amounts : shift + down - up + up = shift + down := by omega
  have rounded : halfEven mantissa (shift + down - up) = halfEven value shift := by
    rw [← halfEven_scale mantissa (shift + down - up) up, amounts, whole, halfEven_scale]
  unfold shiftToTargetExponent shiftToExponent
  simp only [target, steps]
  exact ⟨(roundedMantissa_shiftRight mantissa _).trans rounded, by omega⟩

/-- Rounding an exact `mantissa · 2 ^ exponent` that is a whole number of units. -/
theorem units_round (sign : Sign) {mantissa value up down : Nat} {exponent : Int}
    (mantissaPositive : 0 < mantissa) (fits : 2 ^ 52 ≤ mantissa ∨ exponent ≤ -1074)
    (whole : mantissa * 2 ^ up = value * 2 ^ down)
    (scale : exponent + 1074 = (up : Int) - down) :
    HasUnits (UnpackedFloat.pack .binary64
        (roundWithAccuracy .binary64 sign mantissa exponent .exact))
      (sign.apply (min (nearestUnits value) infiniteMagnitude : Nat)) := by
  have valuePositive : 0 < value := by
    refine Nat.pos_of_ne_zero fun zero => ?_
    have product := Nat.mul_pos mantissaPositive (Nat.two_pow_pos up)
    rw [whole, zero, Nat.zero_mul] at product
    exact Nat.lt_irrefl 0 product
  obtain ⟨rounded, lowered⟩ :=
    roundedMantissa_shiftToTargetExponent mantissaPositive valuePositive fits whole scale
  have units : nearestUnits value =
      halfEven value (value.log2 - 52) * 2 ^ (value.log2 - 52) := rfl
  have short : value.log2 ≤ 52 ∨ 2 ^ 52 ≤ halfEven value (value.log2 - 52) :=
    (Nat.le_total value.log2 52).imp_right fun large => two_pow_le_halfEven valuePositive large
  have positive : 0 < halfEven value (value.log2 - 52) := by
    rcases short with small | large
    · have none : value.log2 - 52 = 0 := by omega
      rwa [none, halfEven_zero_shift]
    · exact Nat.lt_of_lt_of_le (Nat.two_pow_pos 52) large
  have most := halfEven_le_two_pow value
  generalize halfEven value (value.log2 - 52) = significand at *
  generalize shifted : value.log2 - 52 = shift at *
  -- rounding up may carry into another digit, and only then the second shift does anything
  rcases Nat.eq_or_lt_of_le most with full | less
  · have second := shiftToTargetExponent_of_full (show -1074 ≤ (shift : Int) - 1074 by omega)
    rw [roundWithAccuracy_eq sign rounded lowered (full ▸ second) (Nat.two_pow_pos 52)]
    have scaled : ((shift : Int) - 1074 + 1 + 1074).toNat = shift + 1 := by omega
    have same : magnitude (2 ^ 52) ((shift : Int) - 1074 + 1) = nearestUnits value := by
      rw [magnitude, scaled, units, full, pow_succ]
      ring
    rw [← same]
    exact units_pack sign _ (by decide) (by omega) (.inl (Nat.le_refl _))
  · have second := shiftToTargetExponent_of_lt positive less
      (show -1074 ≤ (shift : Int) - 1074 by omega)
    rw [roundWithAccuracy_eq sign rounded lowered second positive]
    have scaled : ((shift : Int) - 1074 + 1074).toNat = shift := by omega
    have same : magnitude significand ((shift : Int) - 1074) = nearestUnits value := by
      rw [magnitude, scaled, units]
    rw [← same]
    exact units_pack sign positive less (by omega) (short.symm.imp_right fun small => by omega)

/-- Rounding a whole number of units that is given with any number of digits. -/
theorem units_roundExact (sign : Sign) {mantissa : Nat} {exponent : Int} (positive : 0 < mantissa)
    (least : -1074 ≤ exponent) :
    HasUnits (UnpackedFloat.pack .binary64 (UnpackedFloat.round .binary64 sign mantissa exponent))
      (sign.apply (min (nearestUnits (magnitude mantissa exponent)) infiniteMagnitude : Nat)) := by
  have smallest : Format.binary64.minExponent = -1074 := rfl
  have bits : ((Format.binary64.mantissaBits : Nat) : Int) = 53 := rfl
  have target : Format.binary64.targetExponent (totalExponent mantissa exponent) =
      max (mantissa.log2 + exponent - 52) (-1074) := by
    unfold Format.targetExponent totalExponent
    rw [smallest, bits]
    omega
  unfold UnpackedFloat.round decreaseExponent
  simp only [target, Nat.shiftLeft_eq]
  generalize shifted : (exponent - max (mantissa.log2 + exponent - 52) (-1074)).toNat = shift
  have fits : 2 ^ 52 ≤ mantissa * 2 ^ shift ∨ exponent - shift ≤ -1074 := by
    rcases Nat.lt_or_ge (mantissa.log2 + shift) 52 with short | long
    · exact .inr (by omega)
    · refine .inl (Nat.le_trans (Nat.pow_le_pow_right (by decide) long) ?_)
      rw [pow_add]
      exact Nat.mul_le_mul_right _ (Nat.log2_self_le (by omega))
  exact units_round sign (Nat.mul_pos positive (Nat.two_pow_pos shift)) fits
    (Nat.mul_right_comm mantissa (2 ^ shift) (2 ^ (exponent + 1074).toNat)) (by omega)

/-- A function of magnitudes, carried over to negative numbers. -/
def mirrored (change : Nat → Nat) (value : Int) : Int :=
  if 0 ≤ value then (change value.toNat : Nat) else -(change (-value).toNat : Nat)

theorem mirrored_le {change : Nat → Nat}
    (monotone : ∀ {low high}, low ≤ high → change low ≤ change high) {low high : Int}
    (le : low ≤ high) : mirrored change low ≤ mirrored change high := by
  unfold mirrored
  split
  next lowPositive =>
    rw [if_pos (Int.le_trans lowPositive le)]
    exact Int.ofNat_le.mpr (monotone (by omega))
  next lowNegative =>
    split
    · exact Int.le_trans (Int.neg_nonpos_of_nonneg (Int.natCast_nonneg _)) (Int.natCast_nonneg _)
    next highNegative =>
      exact Int.neg_le_neg (Int.ofNat_le.mpr (monotone (by omega)))

theorem mirrored_natCast (change : Nat → Nat) (value : Nat) :
    mirrored change value = (change value : Nat) := by
  unfold mirrored
  rw [if_pos (Int.natCast_nonneg value), Int.toNat_natCast]

theorem mirrored_neg {change : Nat → Nat} (zero : change 0 = 0) (value : Nat) :
    mirrored change (-value) = -(change value : Nat) := by
  rcases Nat.eq_zero_or_pos value with rfl | positive
  · simp [mirrored, zero]
  · unfold mirrored
    rw [if_neg (by omega), Int.neg_neg, Int.toNat_natCast]

theorem mirrored_apply {change : Nat → Nat} (zero : change 0 = 0) (sign : Sign) (value : Nat) :
    mirrored change (sign.apply value) = sign.apply (change value : Nat) := by
  cases sign
  · exact mirrored_neg zero value
  · exact mirrored_natCast change value

theorem nearestUnits_zero : nearestUnits 0 = 0 :=
  nearestUnits_of_log2_le (by decide)

/-- A number of units rounded to 53 significant bits; what is too large becomes infinite. -/
def roundedUnits : Int → Int :=
  mirrored fun magnitude => min (nearestUnits magnitude) infiniteMagnitude

theorem roundedUnits_le {low high : Int} (le : low ≤ high) :
    roundedUnits low ≤ roundedUnits high := by
  refine mirrored_le ?_ le
  intro low high le
  exact Nat.le_min.mpr
    ⟨Nat.le_trans (Nat.min_le_left _ _) (nearestUnits_le le), Nat.min_le_right _ _⟩

theorem roundedUnits_apply (sign : Sign) (value : Nat) :
    roundedUnits (sign.apply value) =
      sign.apply (min (nearestUnits value) infiniteMagnitude : Nat) :=
  mirrored_apply (by rw [nearestUnits_zero, Nat.zero_min]) sign value

theorem roundedUnits_zero : roundedUnits 0 = 0 := by
  have zero := roundedUnits_apply .positive 0
  rwa [nearestUnits_zero, Nat.zero_min] at zero

end HostTimeline.Binary64
