import HostTimeline.Proofs.Number.WholeNumber

/-!
Numbers that are integers.  A finite number is read as the integer it is exactly equal to
(`integer?_eq_some_iff`); every number of 2⁵³ or more is one (`exists_equalsInteger`).
-/

namespace HostTimeline.Binary64

open Float.Model Float.Model.UnpackedFloat

/-- A finite number and an integer have the same exact value. -/
def EqualsInteger (x : Float) (value : Int) : Prop :=
  x.isFinite = true ∧ ticks x = value * (2 ^ 1074 : Nat)

theorem signed_isNegative (sign : Sign) (magnitude : Nat) :
    signed (isNegative sign) magnitude = sign.apply magnitude := by
  cases sign <;> rfl

theorem apply_mul_inj {sign : Sign} {size unit : Nat} (positive : 0 < unit) {value : Int} :
    sign.apply (size * unit : Nat) = value * (unit : Int) ↔ sign.apply size = value := by
  rw [← apply_mul]
  exact Int.mul_eq_mul_right_iff (by omega)

theorem zero_eq_mul_iff {value : Int} {unit : Nat} (positive : 0 < unit) :
    0 = value * (unit : Int) ↔ 0 = value := by
  rw [eq_comm, Int.mul_eq_zero, or_iff_left (by omega), eq_comm]

/-- A number with a fractional exponent is an integer if so many parts make it up. -/
theorem magnitude_eq_mul_iff {significand : Nat} {exponent : Int} (least : -1074 ≤ exponent)
    (fractional : exponent < 0) (value : Nat) :
    magnitude significand exponent = value * 2 ^ 1074 ↔
      significand = value * fractionUnit exponent := by
  have split : (2 : Nat) ^ 1074 = fractionUnit exponent * 2 ^ (exponent + 1074).toNat := by
    change _ = 2 ^ (-exponent).toNat * _
    rw [← pow_add]
    congr 1
    omega
  rw [magnitude, split, ← Nat.mul_assoc]
  exact Nat.mul_left_inj (Nat.two_pow_pos _).ne'

theorem integer?_eq_some_iff {x : Float} {value : Int} :
    integer? x = some value ↔ EqualsInteger x value := by
  have canonical : Canonical x.toModel.unpack := canonical_unpack _
  unfold integer? parts EqualsInteger ticks
  change _ ↔ x.toModel.unpack.isFinite = true ∧ _
  generalize x.toModel.unpack = unpacked at canonical ⊢
  cases canonical with
  | notANumber => exact ⟨fun read => (by cases read), fun equals => (by cases equals.1)⟩
  | infinity sign => exact ⟨fun read => (by cases read), fun equals => (by cases equals.1)⟩
  | zero sign =>
      have finite : (UnpackedFloat.zero sign).isFinite = true := rfl
      have zero : sign.apply ((0 : Nat) : Int) = 0 := by cases sign <;> rfl
      change some (signed (isNegative sign) 0) = some value ↔ _ ∧ 0 = _
      rw [Option.some.injEq, signed_isNegative, zero, and_iff_right finite,
        zero_eq_mul_iff (Nat.two_pow_pos 1074)]
  | finite sign significand exponent positive form =>
      have finite : (UnpackedFloat.finite sign significand exponent positive).isFinite = true := rfl
      simp only [finite, true_and, signed_isNegative, units]
      split
      next whole =>
        rw [magnitude_of_whole whole, apply_mul_inj (Nat.two_pow_pos 1074), Option.some.injEq]
        rfl
      next below =>
        have multiple (whole : Nat) : magnitude significand exponent = whole * 2 ^ 1074 ↔ _ :=
          magnitude_eq_mul_iff form.least (Int.not_le.mp below) whole
        split
        next divides =>
          have whole := (Nat.div_mul_cancel (Nat.dvd_of_mod_eq_zero divides)).symm
          rw [(multiple _).mpr whole, apply_mul_inj (Nat.two_pow_pos 1074), Option.some.injEq]
        next remains =>
          refine ⟨fun read => (by cases read), fun equals => absurd ?_ remains⟩
          have sizes := congrArg Int.natAbs equals
          rw [natAbs_apply, Int.natAbs_mul, Int.natAbs_natCast] at sizes
          rw [(multiple _).mp sizes, Nat.mul_mod_left]

theorem IsCanonical.le_exponent_of_le {significand : Nat} {exponent : Int}
    (form : IsCanonical significand exponent) {scale : Nat}
    (large : 2 ^ 53 * 2 ^ scale ≤ magnitude significand exponent) :
    (scale : Int) ≤ exponent + 1074 := by
  by_contra below
  have bounded : magnitude significand exponent < 2 ^ 53 * 2 ^ (exponent + 1074).toNat :=
    Nat.mul_lt_mul_of_pos_right form.bounded (Nat.two_pow_pos _)
  have powers : 2 ^ (exponent + 1074).toNat ≤ 2 ^ scale :=
    Nat.pow_le_pow_right Nat.two_pos (by omega)
  have scaled := Nat.mul_le_mul_left (2 ^ 53) powers
  exact Nat.lt_irrefl _ (Nat.lt_of_lt_of_le bounded (Nat.le_trans scaled large))

/-- A number as large as this has no digits behind the point. -/
theorem exists_equalsInteger {x : Float} (finite : x.isFinite = true)
    (large : 2 ^ 53 * 2 ^ 1074 ≤ (ticks x).natAbs) : ∃ value, EqualsInteger x value := by
  have canonical : Canonical x.toModel.unpack := canonical_unpack _
  unfold EqualsInteger ticks at *
  change x.toModel.unpack.isFinite = true at finite
  change ∃ value, x.toModel.unpack.isFinite = true ∧ _
  generalize x.toModel.unpack = unpacked at canonical finite large ⊢
  cases canonical with
  | notANumber => cases finite
  | infinity sign => cases finite
  | zero sign =>
      have nothing (unit : Int) : ∃ value, 0 = value * unit := ⟨0, (Int.zero_mul unit).symm⟩
      obtain ⟨value, zero⟩ := nothing (2 ^ 1074 : Nat)
      exact ⟨value, finite, zero⟩
  | finite sign significand exponent positive form =>
      rw [units, natAbs_apply] at large
      have scaled := form.le_exponent_of_le large
      have whole : 0 ≤ exponent := by
        clear large
        omega
      refine ⟨sign.apply (significand * 2 ^ exponent.toNat : Nat), finite, ?_⟩
      have scaled := congrArg (fun size : Nat => sign.apply size) (magnitude_of_whole whole significand)
      exact scaled.trans (apply_mul sign _ _).symm

theorem le_natAbs_of_mul_le {bound : Nat} {value size : Int} {unit : Nat} (large : bound ≤ value)
    (le : value * (unit : Int) ≤ size) : bound * unit ≤ size.natAbs := by
  have scaled : (bound : Int) * unit ≤ value * unit :=
    Int.mul_le_mul_of_nonneg_right large (Int.natCast_nonneg unit)
  rw [← Int.natCast_mul] at scaled
  omega

theorem le_of_mul_le {low high : Int} {unit : Nat} (positive : 0 < unit)
    (le : low * (unit : Int) ≤ high * unit) : low ≤ high :=
  Int.le_of_mul_le_mul_right le (Int.natCast_pos.mpr positive)

/-- Above an integer as large as this there are only integers. -/
theorem EqualsInteger.exists_of_le {x y : Float} {value : Int} (equals : EqualsInteger x value)
    (large : (2 ^ 53 : Nat) ≤ value) (le : x ≤ y) (finite : y.isFinite = true) :
    ∃ above, EqualsInteger y above ∧ value ≤ above := by
  have ordered := (le_iff.mp le).2.2
  rw [equals.2] at ordered
  obtain ⟨above, isInteger⟩ := exists_equalsInteger finite (le_natAbs_of_mul_le large ordered)
  refine ⟨above, isInteger, ?_⟩
  rw [isInteger.2] at ordered
  exact le_of_mul_le (by positivity) ordered

end HostTimeline.Binary64
