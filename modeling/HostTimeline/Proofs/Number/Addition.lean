import HostTimeline.Proofs.Number.Order
import HostTimeline.Proofs.Number.WholeNumber

/-!
Sums of binary64 numbers.  The sum of two finite numbers is the exact one, rounded
(`ticks_add`), so adding keeps the order (`add_le_add`).  A long sum therefore does not exceed
another one with greater terms (`sum_le_sum`), nor is a term greater than a sum without negative
ones (`le_sum`), even where the sum is rounded at each step or becomes infinite.  Counts are
added up exactly while they are short enough to be kept (`sum_ofInt`).
-/

namespace HostTimeline

namespace Binary64

open Float.Model Float.Model.UnpackedFloat

/-- An exact number is rounded when it is made a float. -/
theorem units_normalize (mantissa : Int) {exponent : Int} (least : -1074 ≤ exponent) :
    HasUnits (UnpackedFloat.pack .binary64
        (UnpackedFloat.normalize .binary64 mantissa exponent .positive))
      (roundedUnits (mantissa * (2 ^ (exponent + 1074).toNat : Nat))) := by
  have rounded (sign : Sign) {size : Nat} (positive : 0 < size) (value : sign.apply size = mantissa) :
      HasUnits (UnpackedFloat.pack .binary64 (UnpackedFloat.round .binary64 sign size exponent))
        (roundedUnits (mantissa * (2 ^ (exponent + 1074).toNat : Nat))) := by
    rw [← value, apply_mul, roundedUnits_apply]
    exact units_roundExact sign positive least
  unfold UnpackedFloat.normalize
  cases order : compare mantissa 0 with
  | lt =>
      have negative := Int.compare_eq_lt.mp order
      exact rounded .negative (by omega) (by simp only [Sign.apply]; omega)
  | eq =>
      rw [Int.compare_eq_eq.mp order, Int.zero_mul, roundedUnits_zero]
      exact units_packedZero .positive
  | gt =>
      have positive := Int.compare_eq_gt.mp order
      exact rounded .positive (by omega) (by simp only [Sign.apply]; omega)

theorem roundedUnits_infinite (sign : Sign) :
    roundedUnits (sign.apply infiniteMagnitude) = sign.apply infiniteMagnitude := by
  rw [roundedUnits_apply, nearestUnits_infinite, Nat.min_self]

/-- What a float can hold is not changed by rounding. -/
theorem roundedUnits_units {unpacked : UnpackedFloat} (canonical : Canonical unpacked) :
    roundedUnits (units unpacked) = units unpacked := by
  cases canonical with
  | notANumber => exact roundedUnits_zero
  | infinity sign => exact roundedUnits_infinite sign
  | zero sign => exact roundedUnits_zero
  | finite sign significand exponent positive form =>
      have exact : nearestUnits (magnitude significand exponent) = magnitude significand exponent :=
        nearestUnits_exact form.bounded _
      rw [units, roundedUnits_apply, exact, Nat.min_eq_left (Nat.le_of_lt form.magnitude_lt_infinity)]

theorem units_pack_canonical {unpacked : UnpackedFloat} (canonical : Canonical unpacked)
    (number : unpacked ≠ .notANumber) :
    HasUnits (UnpackedFloat.pack .binary64 unpacked) (roundedUnits (units unpacked)) := by
  rw [roundedUnits_units canonical]
  cases canonical with
  | notANumber => exact absurd rfl number
  | infinity sign => exact units_packedInfinity sign
  | zero sign => exact units_packedZero sign
  | finite sign significand exponent positive form =>
      have packed := units_pack sign positive form.bounded form.least form.normal
      rwa [Nat.min_eq_left (Nat.le_of_lt form.magnitude_lt_infinity)] at packed

/-- Shifting a significand to a smaller exponent keeps the value. -/
theorem apply_decreaseExponent (sign : Sign) (significand : Nat) {exponent lower : Int}
    (le : lower ≤ exponent) (least : -1074 ≤ lower) :
    sign.apply (decreaseExponent significand exponent lower).1 * (2 ^ (lower + 1074).toNat : Nat) =
      sign.apply (magnitude significand exponent) := by
  have scale : (exponent + 1074).toNat = (exponent - lower).toNat + (lower + 1074).toNat := by omega
  simp only [decreaseExponent, magnitude]
  rw [apply_mul, scale, pow_add, Nat.shiftLeft_eq, Nat.mul_assoc]

theorem units_add {left right : UnpackedFloat} (leftForm : Canonical left)
    (rightForm : Canonical right) (leftFinite : left.isFinite = true)
    (rightFinite : right.isFinite = true) :
    HasUnits (UnpackedFloat.pack .binary64 (UnpackedFloat.add .binary64 left right))
      (roundedUnits (units left + units right)) := by
  have zero (sign : Sign) : units (.zero sign) = 0 := rfl
  cases leftForm with
  | notANumber => cases leftFinite
  | infinity sign => cases leftFinite
  | zero sign =>
      cases rightForm with
      | notANumber => cases rightFinite
      | infinity other => cases rightFinite
      | zero other =>
          rw [zero, zero, Int.zero_add, roundedUnits_zero]
          cases sign <;> cases other <;> exact units_packedZero _
      | finite other significand exponent positive form =>
          rw [zero, Int.zero_add]
          exact units_pack_canonical (.finite other significand exponent positive form)
            (fun same => by cases same)
  | finite sign significand exponent positive form =>
      cases rightForm with
      | notANumber => cases rightFinite
      | infinity other => cases rightFinite
      | zero other =>
          rw [zero, Int.add_zero]
          exact units_pack_canonical (.finite sign significand exponent positive form)
            (fun same => by cases same)
      | finite other otherSignificand otherExponent otherPositive otherForm =>
          have least : -1074 ≤ min exponent otherExponent :=
            Int.le_min.mpr ⟨form.least, otherForm.least⟩
          have sum := units_normalize
            (sign.apply (decreaseExponent significand exponent (min exponent otherExponent)).1 +
              other.apply
                (decreaseExponent otherSignificand otherExponent (min exponent otherExponent)).1)
            least
          rw [Int.add_mul, apply_decreaseExponent sign significand (Int.min_le_left _ _) least,
            apply_decreaseExponent other otherSignificand (Int.min_le_right _ _) least] at sum
          exact sum

variable {x y z w : Float}

theorem ticks_add (finite : x.isFinite = true) (other : y.isFinite = true) :
    (x + y).isNaN = false ∧ ticks (x + y) = roundedUnits (ticks x + ticks y) := by
  have sum := units_add (canonical_unpack _) (canonical_unpack _) finite other
  rw [isNaN_eq_false_iff]
  exact ⟨sum.number, sum.value⟩

/-- A finite number does not change an infinite one. -/
theorem ticks_add_of_infinite (number : x.isNaN = false) (infinite : ¬ x.isFinite = true)
    (other : y.isFinite = true) :
    (x + y).isNaN = false ∧ (ticks (x + y) = ticks x ∧ (ticks x).natAbs = infiniteMagnitude) := by
  rw [isNaN_eq_false_iff] at number ⊢
  change ¬ x.toModel.unpack.isFinite = true at infinite
  change y.toModel.unpack.isFinite = true at other
  have sum : (x + y).toModel.unpack = UnpackedFloat.unpack .binary64 (UnpackedFloat.pack .binary64
    (UnpackedFloat.add .binary64 x.toModel.unpack y.toModel.unpack)) := rfl
  unfold ticks
  rw [sum]
  cases left : x.toModel.unpack with
  | notANumber => exact absurd left number
  | zero sign => exact absurd (by rw [left]; rfl) infinite
  | finite sign significand exponent positive => exact absurd (by rw [left]; rfl) infinite
  | infinity sign =>
      have kept : UnpackedFloat.add .binary64 (.infinity sign) y.toModel.unpack = .infinity sign := by
        cases right : y.toModel.unpack with
        | notANumber => rw [right] at other; cases other
        | infinity otherSign => rw [right] at other; cases other
        | zero otherSign => rfl
        | finite otherSign significand exponent positive => rfl
      obtain ⟨packed, value⟩ := units_packedInfinity sign
      rw [kept]
      exact ⟨packed, value, natAbs_apply sign _⟩

/-- Adding finite numbers keeps the order, also of infinite ones. -/
theorem add_le_add (le : x ≤ z) (others : y ≤ w) (finite : y.isFinite = true)
    (otherFinite : w.isFinite = true) : x + y ≤ z + w := by
  obtain ⟨number, otherNumber, below⟩ := le_iff.mp le
  have belowOther := (le_iff.mp others).2.2
  by_cases left : x.isFinite = true <;> by_cases right : z.isFinite = true
  · obtain ⟨sumNumber, sum⟩ := ticks_add left finite
    obtain ⟨nextNumber, next⟩ := ticks_add right otherFinite
    refine le_iff.mpr ⟨sumNumber, nextNumber, ?_⟩
    rw [sum, next]
    exact roundedUnits_le (Int.add_le_add below belowOther)
  · obtain ⟨sumNumber, sum⟩ := ticks_add left finite
    obtain ⟨nextNumber, next, infinite⟩ := ticks_add_of_infinite otherNumber right otherFinite
    have bounded := natAbs_ticks_lt left
    have sumBounded := natAbs_roundedUnits_le (ticks x + ticks y)
    refine le_iff.mpr ⟨sumNumber, nextNumber, ?_⟩
    rw [sum, next]
    omega
  · obtain ⟨sumNumber, sum, infinite⟩ := ticks_add_of_infinite number left finite
    obtain ⟨nextNumber, next⟩ := ticks_add right otherFinite
    have bounded := natAbs_ticks_lt right
    have nextBounded := natAbs_roundedUnits_le (ticks z + ticks w)
    refine le_iff.mpr ⟨sumNumber, nextNumber, ?_⟩
    rw [sum, next]
    omega
  · obtain ⟨sumNumber, sum, _⟩ := ticks_add_of_infinite number left finite
    obtain ⟨nextNumber, next, _⟩ := ticks_add_of_infinite otherNumber right otherFinite
    refine le_iff.mpr ⟨sumNumber, nextNumber, ?_⟩
    rw [sum, next]
    exact below

theorem ticks_neutral : ticks (Scalar.neutral : Float) = 0 := by
  have negated : ticks (Scalar.neutral : Float) = -ticks Scalar.zero := ticks_neg Scalar.zero
  rw [negated, ticks_zero, Int.neg_zero]

theorem roundedUnits_ticks (x : Float) : roundedUnits (ticks x) = ticks x :=
  roundedUnits_units (canonical_unpack _)

theorem zero_add_beq (finite : x.isFinite = true) : (Scalar.zero + x == x) = true := by
  obtain ⟨number, sum⟩ := ticks_add isFinite_zero finite
  refine beq_iff.mpr ⟨number, isNaN_of_isFinite finite, ?_⟩
  rw [sum, ticks_zero, Int.zero_add, roundedUnits_ticks]

theorem add_zero_beq (number : x.isNaN = false) : (x + Scalar.zero == x) = true := by
  by_cases finite : x.isFinite = true
  · obtain ⟨sumNumber, sum⟩ := ticks_add finite isFinite_zero
    refine beq_iff.mpr ⟨sumNumber, number, ?_⟩
    rw [sum, ticks_zero, Int.add_zero, roundedUnits_ticks]
  · obtain ⟨sumNumber, sum, _⟩ := ticks_add_of_infinite number finite isFinite_zero
    exact beq_iff.mpr ⟨sumNumber, number, sum⟩

end Binary64

open Binary64 OrderedScalar

/-- A sum keeps the order of its terms, whatever is lost to rounding. -/
theorem foldl_add_le {β : Type} {items : List β} {low high : β → Float}
    (below : ∀ item ∈ items, low item ≤ high item)
    (lowFinite : ∀ item ∈ items, (low item).isFinite = true)
    (highFinite : ∀ item ∈ items, (high item).isFinite = true) {start other : Float}
    (le : start ≤ other) :
    (items.map low).foldl (· + ·) start ≤ (items.map high).foldl (· + ·) other := by
  induction items generalizing start other with
  | nil => exact le
  | cons item rest ih =>
      obtain ⟨itemBelow, restBelow⟩ := List.forall_mem_cons.mp below
      obtain ⟨itemLow, restLow⟩ := List.forall_mem_cons.mp lowFinite
      obtain ⟨itemHigh, restHigh⟩ := List.forall_mem_cons.mp highFinite
      exact ih restBelow restLow restHigh (add_le_add le itemBelow itemLow itemHigh)

theorem neutral_le_neutral : (Scalar.neutral : Float) ≤ Scalar.neutral :=
  le_self_of_isFinite (isFinite_neg isFinite_zero)

theorem sum_le_sum {β : Type} {items : List β} {low high : β → Float}
    (below : ∀ item ∈ items, low item ≤ high item)
    (lowFinite : ∀ item ∈ items, (low item).isFinite = true)
    (highFinite : ∀ item ∈ items, (high item).isFinite = true) :
    Scalar.sum (items.map low) ≤ Scalar.sum (items.map high) :=
  foldl_add_le below lowFinite highFinite neutral_le_neutral

/-- Without negative terms, neither what a sum starts from nor a term is above the sum. -/
theorem le_foldl_add {values : List Float} (positive : ∀ value ∈ values, Scalar.zero ≤ value)
    (finite : ∀ value ∈ values, value.isFinite = true) {start : Float}
    (fromZero : Scalar.zero ≤ start) :
    start ≤ values.foldl (· + ·) start ∧
      ∀ value ∈ values, value ≤ values.foldl (· + ·) start := by
  induction values generalizing start with
  | nil => exact ⟨(le_self_of_le fromZero).2, fun value member => by cases member⟩
  | cons first rest ih =>
      obtain ⟨firstPositive, restPositive⟩ := List.forall_mem_cons.mp positive
      obtain ⟨firstFinite, restFinite⟩ := List.forall_mem_cons.mp finite
      have number := (le_iff.mp fromZero).2.1
      have grown : start ≤ start + first :=
        le_trans (le_of_beq (beq_symm (add_zero_beq number)))
          (add_le_add (le_self_of_le fromZero).2 firstPositive isFinite_zero firstFinite)
      have above : first ≤ start + first :=
        le_trans (le_of_beq (beq_symm (zero_add_beq firstFinite)))
          (add_le_add fromZero (le_self_of_isFinite firstFinite) firstFinite firstFinite)
      obtain ⟨startBelow, members⟩ := ih restPositive restFinite (le_trans fromZero grown)
      exact ⟨le_trans grown startBelow,
        List.forall_mem_cons.mpr ⟨le_trans above startBelow, members⟩⟩

theorem zero_le_neutral : (Scalar.zero : Float) ≤ Scalar.neutral := by
  refine le_iff.mpr ⟨isNaN_of_isFinite isFinite_zero,
    isNaN_of_isFinite (isFinite_neg isFinite_zero), ?_⟩
  rw [ticks_neutral, ticks_zero]

theorem le_sum {values : List Float} (positive : ∀ value ∈ values, Scalar.zero ≤ value)
    (finite : ∀ value ∈ values, value.isFinite = true) :
    ∀ value ∈ values, value ≤ Scalar.sum values :=
  (le_foldl_add positive finite zero_le_neutral).2

theorem zero_le_sum {values : List Float} (positive : ∀ value ∈ values, Scalar.zero ≤ value)
    (finite : ∀ value ∈ values, value.isFinite = true) : Scalar.zero ≤ Scalar.sum values :=
  le_trans zero_le_neutral (le_foldl_add positive finite zero_le_neutral).1

/-- Counts are added up exactly while the sum has no more than 53 bits. -/
theorem ticks_foldl_ofInt (counts : List Nat) {start : Float} {sum : Nat}
    (finite : start.isFinite = true) (started : ticks start = (sum * 2 ^ 1074 : Nat))
    (bounded : sum + counts.sum < 2 ^ 53) :
    let total := (counts.map fun count : Nat => (Scalar.ofInt count : Float)).foldl (· + ·) start
    total.isFinite = true ∧ ticks total = ((sum + counts.sum) * 2 ^ 1074 : Nat) := by
  induction counts generalizing start sum with
  | nil => exact ⟨finite, started⟩
  | cons count rest ih =>
      rw [List.sum_cons, ← Nat.add_assoc] at bounded ⊢
      have small : count < 2 ^ 53 := by omega
      obtain ⟨number, added⟩ := ticks_add finite (isFinite_ofNat small)
      have whole : roundedUnits ((sum + count) * 2 ^ 1074 : Nat) =
          ((sum + count) * 2 ^ 1074 : Nat) := roundedUnits_ones (by omega)
      rw [started, ticks_ofNat small, ← Int.natCast_add, ← Nat.add_mul, whole] at added
      refine ih (isFinite_of_units_lt (isNaN_eq_false_iff.mp number) ?_) added bounded
      change (ticks (start + Float.ofNat count)).natAbs < _
      rw [added, Int.natAbs_natCast]
      exact mul_two_pow_lt_infinite (by omega)

theorem sum_ofInt (counts : List Nat) (bounded : counts.sum < 2 ^ 53) :
    (Scalar.sum (counts.map fun count : Nat => (Scalar.ofInt count : Float)) ==
      Scalar.ofInt counts.sum) = true := by
  have started : ticks (Scalar.neutral : Float) = (0 * 2 ^ 1074 : Nat) := by
    rw [ticks_neutral, Nat.zero_mul]
    rfl
  obtain ⟨finite, total⟩ := ticks_foldl_ofInt counts (isFinite_neg isFinite_zero) started (by omega)
  refine beq_iff.mpr ⟨isNaN_of_isFinite finite, isNaN_ofInt _, ?_⟩
  rw [Nat.zero_add] at total
  exact total.trans (ticks_ofNat bounded).symm

end HostTimeline
