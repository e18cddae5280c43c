import HostTimeline.Proofs.Number.IntegerValue
import Mathlib.Data.Rat.Floor

/-!
Exact values and their integer parts.  A finite number has a rational value (`toRat`), and its
integer part is the greatest integer that is not above that value (`floor?_eq`).
-/

namespace HostTimeline.Binary64

open Float.Model Float.Model.UnpackedFloat

/-- The exact value of a finite number. -/
def toRat (x : Float) : Rat :=
  (ticks x : Rat) / (2 ^ 1074 : Nat)

theorem floor_toRat (x : Float) : ⌊toRat x⌋ = ticks x / (2 ^ 1074 : Nat) :=
  Rat.floor_intCast_div_natCast (ticks x) (2 ^ 1074)

theorem toRat_eq_intCast_iff {x : Float} {value : Int} :
    toRat x = value ↔ ticks x = value * (2 ^ 1074 : Nat) := by
  have one : ((2 ^ 1074 : Nat) : Rat) ≠ 0 := Nat.cast_ne_zero.mpr (by positivity)
  rw [toRat, div_eq_iff one, ← Int.cast_natCast (2 ^ 1074), ← Int.cast_mul, Int.cast_inj]

theorem EqualsInteger.toRat_eq {x : Float} {value : Int} (equals : EqualsInteger x value) :
    toRat x = value :=
  toRat_eq_intCast_iff.mpr equals.2

/-- The integer part of a number with a fractional exponent, in parts and in units. -/
theorem apply_ediv_unit (sign : Sign) {significand : Nat} {exponent : Int}
    (least : -1074 ≤ exponent) (fractional : exponent < 0) :
    sign.apply (magnitude significand exponent) / ((2 ^ 1074 : Nat) : Int) =
      sign.apply significand / (fractionUnit exponent : Int) := by
  have one := (magnitude_eq_mul_iff least fractional 1).mpr (Nat.one_mul _).symm
  rw [Nat.one_mul] at one
  rw [← one, magnitude, magnitude, ← apply_mul, Int.natCast_mul,
    Int.mul_ediv_mul_of_pos_left _ _ (Int.natCast_pos.mpr (Nat.two_pow_pos _))]

theorem floor?_eq {x : Float} (finite : x.isFinite = true) : floor? x = some ⌊toRat x⌋ := by
  have canonical : Canonical x.toModel.unpack := canonical_unpack _
  rw [floor_toRat]
  unfold floor? parts ticks
  change x.toModel.unpack.isFinite = true at finite
  generalize x.toModel.unpack = unpacked at canonical finite ⊢
  cases canonical with
  | notANumber => cases finite
  | infinity sign => cases finite
  | zero sign =>
      have zero : signed (isNegative sign) 0 = 0 := by cases sign <;> rfl
      change some (signed (isNegative sign) 0) = some (0 / _)
      rw [zero, Int.zero_ediv]
  | finite sign significand exponent positive form =>
      simp only [signed_isNegative, units]
      split
      next whole =>
        rw [magnitude_of_whole whole, ← apply_mul sign (significand * 2 ^ exponent.toNat),
          Int.mul_ediv_cancel _ (Int.natCast_pos.mpr (Nat.two_pow_pos 1074)).ne']
        rfl
      next below =>
        rw [apply_ediv_unit sign form.least (Int.not_le.mp below),
          Int.fdiv_eq_ediv_of_nonneg _ (Int.natCast_nonneg _)]

/-- Integers of less than 54 bits are represented. -/
theorem equalsInteger_ofInt {value : Int} (bounded : value.natAbs < 2 ^ 53) :
    EqualsInteger (Float.ofInt value) value := by
  refine ⟨isFinite_ofInt bounded (by decide), ?_⟩
  obtain ⟨sign, size, rfl⟩ := exists_apply value
  rw [natAbs_apply] at bounded
  rw [ticks_ofInt, apply_mul, roundedUnits_apply, nearestUnits_exact bounded 1074,
    Nat.min_eq_left (Nat.le_of_lt (mul_two_pow_lt_infinite bounded))]

end HostTimeline.Binary64
