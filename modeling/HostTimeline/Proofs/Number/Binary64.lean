import HostTimeline.Binary64
import HostTimeline.Proofs.Number.Order
import Mathlib

/-!
The order of binary64 numbers.  A number that is not a NaN is read as an integer, its
distance from zero in units of the least positive number (`ticks`); comparing the numbers
is comparing these integers (`le_iff`, `lt_iff`, `beq_iff`), and the order of the bit
patterns that sorting uses refines it (`ticks_le_of_rank_le`).
-/

namespace HostTimeline.Binary64

open Float.Model Float.Model.UnpackedFloat

theorem toNat_unpackMantissa (bits : BitVec Format.binary64.numBits) :
    (unpackMantissa bits).toNat = bits.toNat % 2 ^ 52 := by
  simp [unpackMantissa]

theorem toNat_unpackExponent (bits : BitVec Format.binary64.numBits) :
    (unpackExponent bits).toNat = bits.toNat / 2 ^ 52 % 2 ^ 11 := by
  simp [unpackExponent, Nat.shiftRight_eq_div_pow]

theorem ofBitVec_unpackSign (bits : BitVec Format.binary64.numBits) :
    Sign.ofBitVec (unpackSign bits) = if bits.toNat < 2 ^ 63 then .positive else .negative := by
  have bound : bits.toNat < 2 ^ 64 := bits.isLt
  have sign : (unpackSign bits).toNat = bits.toNat / 2 ^ 63 := by
    simp [unpackSign, Nat.shiftRight_eq_div_pow]
    omega
  have positive : unpackSign bits = 0#1 ↔ bits.toNat < 2 ^ 63 := by
    rw [← BitVec.toNat_inj, sign]
    simp
  simp only [Sign.ofBitVec, positive]

/-- Significand and exponent as `unpack` gives them. -/
structure IsCanonical (significand : Nat) (exponent : Int) : Prop where
  bounded : significand < 2 ^ 53
  least : -1074 ≤ exponent
  greatest : exponent ≤ 971
  normal : 2 ^ 52 ≤ significand ∨ exponent = -1074

/-- A positive number in units of the least positive one. -/
def magnitude (significand : Nat) (exponent : Int) : Nat :=
  significand * 2 ^ (exponent + 1074).toNat

/-- What an infinity counts as: the power of two that follows the finite numbers. -/
def infiniteMagnitude : Nat :=
  magnitude (2 ^ 52) 972

/-- A number in units of the least positive one; an infinity counts as the power of two
that follows the finite numbers. -/
def units : UnpackedFloat → Int
  | .notANumber => 0
  | .infinity sign => sign.apply infiniteMagnitude
  | .zero _ => 0
  | .finite sign significand exponent _ => sign.apply (magnitude significand exponent)

/-- What `unpack` gives. -/
inductive Canonical : UnpackedFloat → Prop where
  | notANumber : Canonical .notANumber
  | infinity (sign : Sign) : Canonical (.infinity sign)
  | zero (sign : Sign) : Canonical (.zero sign)
  | finite (sign : Sign) (significand : Nat) (exponent : Int) (positive : 0 < significand)
      (form : IsCanonical significand exponent) : Canonical (.finite sign significand exponent positive)

/-- The magnitude of the number with these bits after the sign. -/
def magnitudeOfBits (bits : Nat) : Nat :=
  if bits / 2 ^ 52 = 0 then bits else (2 ^ 52 + bits % 2 ^ 52) * 2 ^ (bits / 2 ^ 52 - 1)

theorem toNat_one_append (low : BitVec 52) : (1#1 ++ low).toNat = 2 ^ 52 + low.toNat := by
  rw [BitVec.toNat_append, ← Nat.shiftLeft_add_eq_or_of_lt low.isLt]
  simp [Nat.shiftLeft_eq]

theorem canonical_unpack (bits : BitVec Format.binary64.numBits) :
    Canonical (UnpackedFloat.unpack Format.binary64 bits) := by
  have exponentBound : (unpackExponent bits).toNat < 2048 := (unpackExponent bits).isLt
  have mantissaBound : (unpackMantissa bits).toNat < 2 ^ 52 := (unpackMantissa bits).isLt
  have bias : Format.binary64.exponentBias = 1023 := rfl
  unfold UnpackedFloat.unpack
  simp only [bias]
  split
  · split
    · exact .infinity _
    · exact .notANumber
  next notSpecial =>
    split
    · split
      · exact .zero _
      next exponentZero mantissaNonzero =>
        refine .finite _ _ _ _ ⟨by omega, ?_, ?_, .inr ?_⟩
        all_goals simp [exponentZero]
    next normal =>
      have low : (unpackExponent bits).toNat ≠ 0 := fun none => normal (BitVec.eq_of_toNat_eq none)
      have high : (unpackExponent bits).toNat ≠ 2047 :=
        fun full => notSpecial (BitVec.eq_of_toNat_eq full)
      refine .finite _ _ _ _ ⟨?_, ?_, ?_, .inl ?_⟩
      · rw [toNat_one_append]; omega
      · simp; omega
      · simp; omega
      · rw [toNat_one_append]; omega

theorem units_unpack_apply {bits : BitVec Format.binary64.numBits}
    (number : UnpackedFloat.unpack Format.binary64 bits ≠ .notANumber) :
    units (UnpackedFloat.unpack Format.binary64 bits) =
      (Sign.ofBitVec (unpackSign bits)).apply (magnitudeOfBits (bits.toNat % 2 ^ 63)) := by
  have bound : bits.toNat < 2 ^ 64 := bits.isLt
  have exponentField := toNat_unpackExponent bits
  have mantissaField := toNat_unpackMantissa bits
  have bias : Format.binary64.exponentBias = 1023 := rfl
  have exponentPart : bits.toNat % 2 ^ 63 / 2 ^ 52 = (unpackExponent bits).toNat := by omega
  have mantissaPart : bits.toNat % 2 ^ 63 % 2 ^ 52 = (unpackMantissa bits).toNat := by omega
  have split : bits.toNat % 2 ^ 63 =
      2 ^ 52 * (unpackExponent bits).toNat + (unpackMantissa bits).toNat := by omega
  have special : unpackExponent bits = -1#_ ↔ (unpackExponent bits).toNat = 2047 :=
    BitVec.toNat_inj.symm
  have small : unpackExponent bits = 0#_ ↔ (unpackExponent bits).toNat = 0 :=
    BitVec.toNat_inj.symm
  have none : unpackMantissa bits = 0#_ ↔ (unpackMantissa bits).toNat = 0 :=
    BitVec.toNat_inj.symm
  unfold UnpackedFloat.unpack magnitudeOfBits at *
  simp only [bias, special, small, none, exponentPart, mantissaPart] at number ⊢
  split
  next full =>
    by_cases empty : (unpackMantissa bits).toNat = 0
    · simp only [empty, ↓reduceIte, full, units]
      have scale : ((972 : Int) + 1074).toNat = 2047 - 1 := rfl
      rw [infiniteMagnitude, magnitude, scale, if_neg (by decide), Nat.add_zero]
    · simp [full, empty] at number
  next =>
    split
    next zero =>
      split
      next empty =>
        have nothing : bits.toNat % 2 ^ 63 = 0 := by omega
        rw [nothing]
        cases Sign.ofBitVec (unpackSign bits) <;> rfl
      next =>
        have rest : bits.toNat % 2 ^ 63 = (unpackMantissa bits).toNat := by omega
        rw [rest]
        simp [units, magnitude, zero]
    next nonzero =>
      have scale : (((unpackExponent bits).toNat : Int) - ((1023 : Nat) + (52 : Nat)) + 1074).toNat =
          (unpackExponent bits).toNat - 1 := by omega
      simp only [units, magnitude, toNat_one_append, scale]

theorem units_unpack {bits : BitVec Format.binary64.numBits}
    (number : UnpackedFloat.unpack Format.binary64 bits ≠ .notANumber) :
    units (UnpackedFloat.unpack Format.binary64 bits) =
      if bits.toNat < 2 ^ 63 then (magnitudeOfBits bits.toNat : Int)
      else -(magnitudeOfBits (bits.toNat - 2 ^ 63) : Int) := by
  have bound : bits.toNat < 2 ^ 64 := bits.isLt
  rw [units_unpack_apply number, ofBitVec_unpackSign]
  split
  next positive => rw [Nat.mod_eq_of_lt positive]; rfl
  next negative =>
    have low : bits.toNat % 2 ^ 63 = bits.toNat - 2 ^ 63 := by omega
    rw [low]; rfl

theorem magnitude_pos {significand : Nat} (positive : 0 < significand) (exponent : Int) :
    0 < magnitude significand exponent :=
  Nat.mul_pos positive (Nat.two_pow_pos _)

theorem magnitude_lt_of_exponent_lt {left right : Nat} {low high : Int}
    (bounded : left < 2 ^ 53) (least : -1074 ≤ low) (normal : 2 ^ 52 ≤ right) (less : low < high) :
    magnitude left low < magnitude right high := by
  have step : (high + 1074).toNat = (high - low).toNat + (low + 1074).toNat := by omega
  have double : 2 ≤ 2 ^ (high - low).toNat := Nat.le_self_pow (by omega) 2
  calc left * 2 ^ (low + 1074).toNat
      < 2 ^ 52 * 2 * 2 ^ (low + 1074).toNat := Nat.mul_lt_mul_of_pos_right bounded (Nat.two_pow_pos _)
    _ ≤ right * 2 ^ (high - low).toNat * 2 ^ (low + 1074).toNat :=
        Nat.mul_le_mul_right _ (Nat.mul_le_mul normal double)
    _ = right * 2 ^ (high + 1074).toNat := by rw [step, pow_add, Nat.mul_assoc]

theorem IsCanonical.magnitude_lt {left right : Nat} {low high : Int}
    (canonical : IsCanonical left low) (other : IsCanonical right high) (less : low < high) :
    magnitude left low < magnitude right high := by
  have least := canonical.least
  exact magnitude_lt_of_exponent_lt canonical.bounded least (other.normal.resolve_right (by omega)) less

theorem IsCanonical.magnitude_lt_infinity {significand : Nat} {exponent : Int}
    (canonical : IsCanonical significand exponent) :
    magnitude significand exponent < infiniteMagnitude := by
  have greatest := canonical.greatest
  exact magnitude_lt_of_exponent_lt canonical.bounded canonical.least (Nat.le_refl _) (by omega)

theorem compare_of_lt {left right : Int} (less : left < right) :
    some Ordering.lt = some (compare left right) :=
  congrArg some (Int.compare_eq_lt.mpr less).symm

theorem compare_of_gt {left right : Int} (greater : right < left) :
    some Ordering.gt = some (compare left right) :=
  congrArg some (Int.compare_eq_gt.mpr greater).symm

theorem compare_of_eq {left right : Int} (same : left = right) :
    some Ordering.eq = some (compare left right) :=
  congrArg some (Int.compare_eq_eq.mpr same).symm

theorem compare_magnitude {left right : Nat} {low high : Int}
    (canonical : IsCanonical left low) (other : IsCanonical right high) :
    (compare low high).then (compare left right) =
      compare (magnitude left low : Int) (magnitude right high) := by
  rcases Int.lt_trichotomy low high with less | same | greater
  · rw [Int.compare_eq_lt.mpr less]
    exact (Int.compare_eq_lt.mpr (Int.ofNat_lt.mpr (canonical.magnitude_lt other less))).symm
  · subst same
    rw [Int.compare_eq_eq.mpr rfl]
    have scale : 0 < 2 ^ (low + 1074).toNat := Nat.two_pow_pos _
    rcases Nat.lt_trichotomy left right with less | same | greater
    · rw [Nat.compare_eq_lt.mpr less]
      exact (Int.compare_eq_lt.mpr (Int.ofNat_lt.mpr (Nat.mul_lt_mul_of_pos_right less scale))).symm
    · subst same
      rw [Nat.compare_eq_eq.mpr rfl, Int.compare_eq_eq.mpr rfl]
      rfl
    · rw [Nat.compare_eq_gt.mpr greater]
      exact (Int.compare_eq_gt.mpr
        (Int.ofNat_lt.mpr (Nat.mul_lt_mul_of_pos_right greater scale))).symm
  · rw [Int.compare_eq_gt.mpr greater]
    exact (Int.compare_eq_gt.mpr (Int.ofNat_lt.mpr (other.magnitude_lt canonical greater))).symm

theorem swap_compare (left right : Int) : (compare left right).swap = compare (-left) (-right) := by
  rw [Int.compare_swap, Int.compare_eq_ite_lt, Int.compare_eq_ite_lt]
  simp only [Int.neg_lt_neg_iff]

theorem compare_finite {sign otherSign : Sign} {left right : Nat} {low high : Int}
    {positive : 0 < left} {otherPositive : 0 < right}
    (canonical : IsCanonical left low) (other : IsCanonical right high) :
    (UnpackedFloat.finite sign left low positive).compare
        (.finite otherSign right high otherPositive) =
      some (compare (sign.apply (magnitude left low)) (otherSign.apply (magnitude right high))) := by
  have above := magnitude_pos positive low
  have otherAbove := magnitude_pos otherPositive high
  have magnitudes := compare_magnitude canonical other
  cases sign <;> cases otherSign
  · change some ((compare low high).then (compare left right)).swap = _
    rw [magnitudes, swap_compare]
    rfl
  · exact compare_of_lt (by simp only [Sign.apply]; omega)
  · exact compare_of_gt (by simp only [Sign.apply]; omega)
  · exact congrArg some magnitudes

theorem compare_units {left right : UnpackedFloat} (canonical : Canonical left)
    (other : Canonical right) (leftNumber : left ≠ .notANumber) (rightNumber : right ≠ .notANumber) :
    left.compare right = some (compare (units left) (units right)) := by
  have infinite : 0 < infiniteMagnitude := magnitude_pos (Nat.two_pow_pos _) _
  cases canonical with
  | notANumber => exact absurd rfl leftNumber
  | infinity sign =>
      cases other with
      | notANumber => exact absurd rfl rightNumber
      | infinity other =>
          cases sign <;> cases other
          · exact compare_of_eq rfl
          · exact compare_of_lt (by simp only [units, Sign.apply]; omega)
          · exact compare_of_gt (by simp only [units, Sign.apply]; omega)
          · exact compare_of_eq rfl
      | zero other =>
          cases sign
          · exact compare_of_lt (by simp only [units, Sign.apply]; omega)
          · exact compare_of_gt (by simp only [units, Sign.apply]; omega)
      | finite other significand exponent positive form =>
          have bound := form.magnitude_lt_infinity
          cases sign
          · exact compare_of_lt (by cases other <;> simp only [units, Sign.apply] <;> omega)
          · exact compare_of_gt (by cases other <;> simp only [units, Sign.apply] <;> omega)
  | zero sign =>
      cases other with
      | notANumber => exact absurd rfl rightNumber
      | infinity other =>
          cases other
          · exact compare_of_gt (by simp only [units, Sign.apply]; omega)
          · exact compare_of_lt (by simp only [units, Sign.apply]; omega)
      | zero other => exact compare_of_eq rfl
      | finite other significand exponent positive form =>
          have above := magnitude_pos positive exponent
          cases other
          · exact compare_of_gt (by simp only [units, Sign.apply]; omega)
          · exact compare_of_lt (by simp only [units, Sign.apply]; omega)
  | finite sign significand exponent positive form =>
      have above := magnitude_pos positive exponent
      have bound := form.magnitude_lt_infinity
      cases other with
      | notANumber => exact absurd rfl rightNumber
      | infinity other =>
          cases other
          · exact compare_of_gt (by cases sign <;> simp only [units, Sign.apply] <;> omega)
          · exact compare_of_lt (by cases sign <;> simp only [units, Sign.apply] <;> omega)
      | zero other =>
          cases sign
          · exact compare_of_lt (by simp only [units, Sign.apply]; omega)
          · exact compare_of_gt (by simp only [units, Sign.apply]; omega)
      | finite other significand exponent positive otherForm => exact compare_finite form otherForm

/-- The units of a number; zero for a NaN. -/
def ticks (x : Float) : Int :=
  units x.toModel.unpack

theorem isNaN_iff {x : Float} : x.isNaN = true ↔ x.toModel.unpack = .notANumber := by
  change x.toModel.unpack.isNaN = true ↔ _
  cases x.toModel.unpack <;> simp [UnpackedFloat.isNaN]

theorem isNaN_eq_false_iff {x : Float} : x.isNaN = false ↔ x.toModel.unpack ≠ .notANumber := by
  rw [← Bool.not_eq_true, isNaN_iff]

theorem isNaN_of_isFinite {x : Float} (finite : x.isFinite = true) : x.isNaN = false := by
  change x.toModel.unpack.isFinite = true at finite
  rw [isNaN_eq_false_iff]
  intro undefined
  rw [undefined] at finite
  cases finite

theorem compare_unpack {x y : Float} (number : x.isNaN = false) (other : y.isNaN = false) :
    x.toModel.unpack.compare y.toModel.unpack = some (compare (ticks x) (ticks y)) :=
  compare_units (canonical_unpack _) (canonical_unpack _)
    (isNaN_eq_false_iff.mp number) (isNaN_eq_false_iff.mp other)

theorem compare_unpack_of_isNaN {x y : Float} (undefined : ¬ (x.isNaN = false ∧ y.isNaN = false)) :
    x.toModel.unpack.compare y.toModel.unpack = none := by
  rcases not_and_or.mp undefined with left | right
  · rw [isNaN_iff.mp (eq_true_of_ne_false left)]
    cases y.toModel.unpack <;> rfl
  · rw [isNaN_iff.mp (eq_true_of_ne_false right)]
    cases x.toModel.unpack <;> rfl

theorem le_iff {x y : Float} :
    x ≤ y ↔ x.isNaN = false ∧ y.isNaN = false ∧ ticks x ≤ ticks y := by
  have le : x ≤ y ↔ (x.toModel.unpack.compare y.toModel.unpack).any Ordering.isLE = true := by
    change decide (x.toModel ≤ y.toModel) = true ↔ _
    rw [decide_eq_true_iff]
    rfl
  rw [le]
  by_cases numbers : x.isNaN = false ∧ y.isNaN = false
  · rw [compare_unpack numbers.1 numbers.2, Option.any_some, Int.isLE_compare]
    exact ⟨fun le => ⟨numbers.1, numbers.2, le⟩, fun both => both.2.2⟩
  · rw [compare_unpack_of_isNaN numbers, Option.any_none]
    exact ⟨fun none => (nomatch none), fun both => absurd ⟨both.1, both.2.1⟩ numbers⟩

theorem le_self_of_number {x : Float} (number : x.isNaN = false) : x ≤ x :=
  le_iff.mpr ⟨number, number, Int.le_refl _⟩

theorem le_self_of_isFinite {x : Float} (finite : x.isFinite = true) : x ≤ x :=
  le_self_of_number (isNaN_of_isFinite finite)

theorem lt_iff {x y : Float} :
    x < y ↔ x.isNaN = false ∧ y.isNaN = false ∧ ticks x < ticks y := by
  have lt : x < y ↔ (x.toModel.unpack.compare y.toModel.unpack == some .lt) = true := by
    change decide (x.toModel < y.toModel) = true ↔ _
    rw [decide_eq_true_iff]
    rfl
  rw [lt, beq_iff_eq]
  by_cases numbers : x.isNaN = false ∧ y.isNaN = false
  · rw [compare_unpack numbers.1 numbers.2, Option.some.injEq, Int.compare_eq_lt]
    exact ⟨fun less => ⟨numbers.1, numbers.2, less⟩, fun both => both.2.2⟩
  · rw [compare_unpack_of_isNaN numbers]
    exact ⟨fun none => (nomatch none), fun both => absurd ⟨both.1, both.2.1⟩ numbers⟩

theorem beq_iff {x y : Float} :
    (x == y) = true ↔ x.isNaN = false ∧ y.isNaN = false ∧ ticks x = ticks y := by
  have beq : (x == y) = (x.toModel.unpack.compare y.toModel.unpack == some .eq) := rfl
  rw [beq, beq_iff_eq]
  by_cases numbers : x.isNaN = false ∧ y.isNaN = false
  · rw [compare_unpack numbers.1 numbers.2, Option.some.injEq, Int.compare_eq_eq]
    exact ⟨fun same => ⟨numbers.1, numbers.2, same⟩, fun both => both.2.2⟩
  · rw [compare_unpack_of_isNaN numbers]
    exact ⟨fun none => (nomatch none), fun both => absurd ⟨both.1, both.2.1⟩ numbers⟩

theorem ticks_eq {x : Float} (number : x.isNaN = false) :
    ticks x =
      if x.toBits < signBit then (magnitudeOfBits x.toBits.toNat : Int)
      else -(magnitudeOfBits (x.toBits.toNat - 2 ^ 63) : Int) := by
  have value : ticks x = _ := units_unpack (isNaN_eq_false_iff.mp number)
  rw [value]
  rfl

theorem magnitudeOfBits_le {low high : Nat} (le : low ≤ high) :
    magnitudeOfBits low ≤ magnitudeOfBits high := by
  have exponents : low / 2 ^ 52 ≤ high / 2 ^ 52 := Nat.div_le_div_right le
  unfold magnitudeOfBits
  by_cases small : low / 2 ^ 52 = 0
  · by_cases otherSmall : high / 2 ^ 52 = 0
    · rwa [if_pos small, if_pos otherSmall]
    · rw [if_pos small, if_neg otherSmall]
      have positive : 0 < 2 ^ (high / 2 ^ 52 - 1) := Nat.two_pow_pos _
      calc low ≤ 2 ^ 52 + high % 2 ^ 52 := by omega
        _ ≤ (2 ^ 52 + high % 2 ^ 52) * 2 ^ (high / 2 ^ 52 - 1) := Nat.le_mul_of_pos_right _ positive
  · rw [if_neg small, if_neg (by omega)]
    rcases Nat.eq_or_lt_of_le exponents with same | less
    · rw [same]
      exact Nat.mul_le_mul_right _ (by omega)
    · have step : 2 ^ (low / 2 ^ 52 - 1) * 2 ≤ 2 ^ (high / 2 ^ 52 - 1) := by
        rw [← Nat.pow_succ]
        exact Nat.pow_le_pow_right (by decide) (by omega)
      calc (2 ^ 52 + low % 2 ^ 52) * 2 ^ (low / 2 ^ 52 - 1)
          ≤ 2 ^ 52 * 2 * 2 ^ (low / 2 ^ 52 - 1) := Nat.mul_le_mul_right _ (by omega)
        _ = 2 ^ 52 * (2 ^ (low / 2 ^ 52 - 1) * 2) := by ring
        _ ≤ (2 ^ 52 + high % 2 ^ 52) * 2 ^ (high / 2 ^ 52 - 1) :=
            Nat.mul_le_mul (Nat.le_add_right _ _) step

theorem toNat_rank (x : Float) :
    (rank x).toNat =
      if x.toBits < signBit then x.toBits.toNat + 2 ^ 63 else 2 ^ 64 - 1 - x.toBits.toNat := by
  unfold rank
  have value : signBit.toNat = 2 ^ 63 := rfl
  simp only
  split
  next positive =>
    rw [UInt64.lt_iff_toNat_lt, value] at positive
    rw [UInt64.toNat_add, value, Nat.mod_eq_of_lt (by omega)]
  next => rw [UInt64.toNat_not]; rfl

/-- The order by rank refines the order by value. -/
theorem ticks_le_of_rank_le {x y : Float} (number : x.isNaN = false) (other : y.isNaN = false)
    (le : rank x ≤ rank y) : ticks x ≤ ticks y := by
  have bound := x.toBits.toNat_lt
  have otherBound := y.toBits.toNat_lt
  have value : signBit.toNat = 2 ^ 63 := rfl
  rw [UInt64.le_iff_toNat_le, toNat_rank, toNat_rank] at le
  rw [ticks_eq number, ticks_eq other]
  simp only [UInt64.lt_iff_toNat_lt, value] at le ⊢
  split at le <;> split at le
  next positive otherPositive =>
    have magnitudes := magnitudeOfBits_le (show x.toBits.toNat ≤ y.toBits.toNat by omega)
    rw [if_pos positive, if_pos otherPositive]
    omega
  next positive otherNegative => omega
  next negative otherPositive =>
    rw [if_neg negative, if_pos otherPositive]
    omega
  next negative otherNegative =>
    have magnitudes := magnitudeOfBits_le
      (show y.toBits.toNat - 2 ^ 63 ≤ x.toBits.toNat - 2 ^ 63 by omega)
    rw [if_neg negative, if_neg otherNegative]
    omega

end HostTimeline.Binary64

namespace HostTimeline

open Binary64

instance : OrderedScalar Float where
  le_trans := by
    intro left middle right first second
    have lower := le_iff.mp first
    have upper := le_iff.mp second
    exact le_iff.mpr ⟨lower.1, upper.2.1, Int.le_trans lower.2.2 upper.2.2⟩
  le_total := by
    intro left right comparable other
    have number := (le_iff.mp comparable).1
    have otherNumber := (le_iff.mp other).1
    rcases Int.le_total (ticks left) (ticks right) with le | le
    · exact .inl (le_iff.mpr ⟨number, otherNumber, le⟩)
    · exact .inr (le_iff.mpr ⟨otherNumber, number, le⟩)
  le_self_of_le := by
    intro left right le
    have both := le_iff.mp le
    exact ⟨le_iff.mpr ⟨both.1, both.1, Int.le_refl _⟩, le_iff.mpr ⟨both.2.1, both.2.1, Int.le_refl _⟩⟩
  lt_iff_le_not_le := by
    intro left right
    constructor
    · intro less
      have both := lt_iff.mp less
      exact ⟨le_iff.mpr ⟨both.1, both.2.1, Int.le_of_lt both.2.2⟩,
        fun back => Int.not_le.mpr both.2.2 (le_iff.mp back).2.2⟩
    · intro ⟨le, notBack⟩
      have both := le_iff.mp le
      refine lt_iff.mpr ⟨both.1, both.2.1, Int.not_le.mp fun back => ?_⟩
      exact notBack (le_iff.mpr ⟨both.2.1, both.1, back⟩)
  beq_iff_le_le := by
    intro left right
    have same := @beq_iff left right
    have le := @le_iff left right
    have back := @le_iff right left
    rw [same, le, back]
    constructor
    · intro ⟨number, other, equal⟩
      exact ⟨⟨number, other, Int.le_of_eq equal⟩, other, number, Int.le_of_eq equal.symm⟩
    · intro ⟨⟨number, other, le⟩, _, _, ge⟩
      exact ⟨number, other, Int.le_antisymm le ge⟩
  precedes_total left right := by
    simp only [Scalar.precedes, Bool.or_eq_true, decide_eq_true_eq]
    exact UInt64.le_total _ _
  precedes_trans := by
    intro left middle right first second
    simp only [Scalar.precedes, decide_eq_true_eq] at *
    exact UInt64.le_trans first second
  le_of_precedes := by
    intro left right comparable other precedes
    have number := (le_iff.mp comparable).1
    have otherNumber := (le_iff.mp other).1
    exact le_iff.mpr ⟨number, otherNumber,
      ticks_le_of_rank_le number otherNumber (of_decide_eq_true precedes)⟩
  zero_le_zero := by decide

end HostTimeline
