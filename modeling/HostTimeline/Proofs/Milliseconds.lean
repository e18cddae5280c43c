import HostTimeline.Timeline
import HostTimeline.Proofs.Number.SignedZero
import HostTimeline.Proofs.Number.WholeNumber

/-!
Positions on a chart.  Times are scaled by 1000 and rounded; the order of two times is kept
(`toMilliseconds_le`), but distinct times can come to lie at one position.  No two of them come
to lie at zeros of different sign (`toMilliseconds_eq_of_beq`).
-/

namespace HostTimeline

namespace Binary64

open Float.Model Float.Model.UnpackedFloat

/-- The units of a finite number scaled by 1000. -/
def scaledUnits (value : Int) : Int :=
  if 0 ≤ value then (min (nearestUnits (value.toNat * 1000)) infiniteMagnitude : Nat)
  else -(min (nearestUnits ((-value).toNat * 1000)) infiniteMagnitude : Nat)

theorem scaledUnits_eq (value : Int) : scaledUnits value =
    mirrored (fun magnitude => min (nearestUnits (magnitude * 1000)) infiniteMagnitude) value :=
  rfl

theorem scaledUnits_apply (sign : Sign) (value : Nat) :
    scaledUnits (sign.apply value) =
      sign.apply (min (nearestUnits (value * 1000)) infiniteMagnitude : Nat) := by
  rw [scaledUnits_eq]
  refine mirrored_apply ?_ sign value
  rw [Nat.zero_mul, nearestUnits_zero, Nat.zero_min]

theorem scaledUnits_le {low high : Int} (le : low ≤ high) : scaledUnits low ≤ scaledUnits high := by
  rw [scaledUnits_eq, scaledUnits_eq]
  refine mirrored_le ?_ le
  intro low high le
  have scaled : nearestUnits (low * 1000) ≤ nearestUnits (high * 1000) :=
    nearestUnits_le (Nat.mul_le_mul_right 1000 le)
  exact Nat.le_min.mpr ⟨Nat.le_trans (Nat.min_le_left _ _) scaled, Nat.min_le_right _ _⟩

theorem scaledUnits_zero : scaledUnits 0 = 0 := by
  have zero := scaledUnits_apply .positive 0
  rwa [Nat.zero_mul, nearestUnits_zero, Nat.zero_min] at zero

/-- What is infinite stays so. -/
theorem scaledUnits_infinite (sign : Sign) :
    scaledUnits (sign.apply infiniteMagnitude) = sign.apply infiniteMagnitude := by
  have larger : nearestUnits infiniteMagnitude ≤ nearestUnits (infiniteMagnitude * 1000) :=
    nearestUnits_le (Nat.le_mul_of_pos_right _ (by decide))
  rw [nearestUnits_infinite] at larger
  rw [scaledUnits_apply, Nat.min_eq_right larger]

/-- Only zero is scaled to zero: nothing is lost at the lower end of the range. -/
theorem scaledUnits_eq_zero {value : Int} (zero : scaledUnits value = 0) : value = 0 := by
  obtain ⟨sign, size, rfl⟩ := exists_apply value
  rcases Nat.eq_zero_or_pos size with rfl | positive
  · cases sign <;> rfl
  · have kept : 0 < nearestUnits (size * 1000) :=
      Nat.lt_of_lt_of_le (Nat.two_pow_pos _) (two_pow_log2_le_nearestUnits (by omega))
    have infinite : 0 < infiniteMagnitude := magnitude_pos (Nat.two_pow_pos 52) _
    have absolute := congrArg Int.natAbs zero
    rw [scaledUnits_apply, natAbs_apply, Int.natAbs_zero] at absolute
    omega

theorem unpack_thousand : (Float.ofInt 1000).toModel.unpack =
    .finite .positive (1000 * 2 ^ 43) (-43) (by decide) := by
  rfl

theorem unpack_toMilliseconds (time : Float) : (toMilliseconds time).toModel.unpack =
    UnpackedFloat.unpack .binary64 (UnpackedFloat.pack .binary64 (UnpackedFloat.mul .binary64
      time.toModel.unpack (.finite .positive (1000 * 2 ^ 43) (-43) (by decide)))) := by
  rw [← unpack_thousand]
  rfl

theorem isNaN_toMilliseconds {time : Float} (undefined : time.isNaN = true) :
    (toMilliseconds time).isNaN = true := by
  rw [isNaN_iff] at undefined ⊢
  rw [unpack_toMilliseconds, undefined]
  exact unpack_packedNaN

theorem ticks_toMilliseconds {time : Float} (number : time.isNaN = false) :
    (toMilliseconds time).isNaN = false ∧
      ticks (toMilliseconds time) = scaledUnits (ticks time) := by
  rw [isNaN_eq_false_iff] at number ⊢
  have product := unpack_toMilliseconds time
  have canonical : Canonical time.toModel.unpack := canonical_unpack _
  unfold ticks
  rw [product]
  cases unpacked : time.toModel.unpack with
  | notANumber => exact absurd unpacked number
  | infinity sign =>
      have infinite : UnpackedFloat.pack .binary64 (UnpackedFloat.mul .binary64 (.infinity sign)
          (.finite .positive (1000 * 2 ^ 43) (-43) (by decide))) =
            packedInfinity .binary64 (sign * .positive) := rfl
      obtain ⟨kept, value⟩ := units_packedInfinity (sign * .positive)
      rw [infinite]
      refine ⟨kept, value.trans ?_⟩
      rw [mul_positive]
      exact (scaledUnits_infinite sign).symm
  | zero sign =>
      have nothing : UnpackedFloat.pack .binary64 (UnpackedFloat.mul .binary64 (.zero sign)
          (.finite .positive (1000 * 2 ^ 43) (-43) (by decide))) =
            packedZero .binary64 (sign * .positive) := rfl
      have zero : units (.zero sign) = 0 := rfl
      obtain ⟨kept, value⟩ := units_packedZero (sign * .positive)
      rw [nothing]
      refine ⟨kept, ?_⟩
      rw [value, zero, scaledUnits_zero]
  | finite sign significand exponent positive =>
      rw [unpacked] at canonical
      cases canonical with
      | finite _ _ _ _ form =>
          have least := form.least
          have large : 2 ^ 52 ≤ significand * (1000 * 2 ^ 43) := by omega
          have whole : significand * (1000 * 2 ^ 43) * 2 ^ (exponent + 1074).toNat =
              magnitude significand exponent * 1000 * 2 ^ 43 := by
            unfold magnitude
            ring
          have rounded := units_round (sign * .positive) (by omega) (.inl large) whole
            (show exponent + -43 + 1074 = ((exponent + 1074).toNat : Int) - (43 : Nat) by omega)
          refine ⟨rounded.number, rounded.value.trans ?_⟩
          rw [mul_positive]
          exact (scaledUnits_apply sign (magnitude significand exponent)).symm

end Binary64

theorem toMilliseconds_le {left right : Float} (le : left ≤ right) :
    toMilliseconds left ≤ toMilliseconds right := by
  obtain ⟨leftNumber, rightNumber, below⟩ := Binary64.le_iff.mp le
  obtain ⟨leftKept, leftUnits⟩ := Binary64.ticks_toMilliseconds leftNumber
  obtain ⟨rightKept, rightUnits⟩ := Binary64.ticks_toMilliseconds rightNumber
  refine Binary64.le_iff.mpr ⟨leftKept, rightKept, ?_⟩
  rw [leftUnits, rightUnits]
  exact Binary64.scaledUnits_le below

/-- Distinct times at positions that are equal by value are at the same one. -/
theorem toMilliseconds_eq_of_beq {left right : Float} (less : left < right)
    (same : (toMilliseconds left == toMilliseconds right) = true) :
    toMilliseconds left = toMilliseconds right := by
  refine Binary64.eq_of_alike (.inr same) fun zero => ?_
  obtain ⟨number, otherNumber, below⟩ := Binary64.lt_iff.mp less
  obtain ⟨_, position⟩ := Binary64.ticks_toMilliseconds number
  obtain ⟨_, otherPosition⟩ := Binary64.ticks_toMilliseconds otherNumber
  have none : Binary64.ticks (toMilliseconds left) = 0 :=
    (Binary64.beq_iff.mp zero).2.2.trans Binary64.ticks_zero
  have noneEither : Binary64.ticks (toMilliseconds right) = 0 :=
    (Binary64.beq_iff.mp same).2.2.symm.trans none
  rw [Binary64.scaledUnits_eq_zero (position.symm.trans none),
    Binary64.scaledUnits_eq_zero (otherPosition.symm.trans noneEither)] at below
  exact Int.lt_irrefl 0 below

end HostTimeline
