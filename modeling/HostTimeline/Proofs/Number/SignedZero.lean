import HostTimeline.Proofs.Number.Finite

/-!
The two zeros.  They are equal by value, so numbers that compare equal need not be the same;
but sums that start at positive zero do not tell them apart (`add_eq_of_alike`).
-/

namespace HostTimeline

namespace Binary64

open Float.Model Float.Model.UnpackedFloat

/-- The same number, or two zeros. -/
inductive Near : UnpackedFloat → UnpackedFloat → Prop where
  | same (value : UnpackedFloat) : Near value value
  | zeros (sign other : Sign) : Near (.zero sign) (.zero other)

theorem near_of_alike {x y : Float} (alike : Scalar.Alike x y) :
    Near x.toModel.unpack y.toModel.unpack := by
  rcases alike with rfl | equal
  · exact .same _
  · obtain ⟨_, _, rfl | ⟨rfl, rfl⟩ | ⟨rfl, rfl⟩⟩ := Float.beq_iff_ne_nan_and_eq.mp equal
    · exact .same _
    · exact .zeros .positive .negative
    · exact .zeros .negative .positive

/-- Only the two zeros are not the same number although they are equal by value. -/
theorem eq_of_alike {x y : Float} (alike : Scalar.Alike x y)
    (nonzero : ¬ (x == Scalar.zero) = true) : x = y := by
  rcases alike with same | equal
  · exact same
  · obtain ⟨_, _, same | ⟨rfl, _⟩ | ⟨rfl, _⟩⟩ := Float.beq_iff_ne_nan_and_eq.mp equal
    · exact same
    · exact absurd (by decide) nonzero
    · exact absurd (by decide) nonzero

theorem eq_of_ne_negative_zero {x y : Float} (left : x ≠ -0) (right : y ≠ -0)
    (equal : (x == y) = true) : x = y := by
  obtain ⟨_, _, same | ⟨_, negative⟩ | ⟨negative, _⟩⟩ := Float.beq_iff_ne_nan_and_eq.mp equal
  · exact same
  · exact absurd negative right
  · exact absurd negative left

/-- What depends on a number that is positive does not tell numbers apart that are equal by
value. -/
theorem ite_positive_eq {β : Type} {x y : Float} (alike : Scalar.Alike x y) (result : Float → β)
    (otherwise : β) : (if Scalar.zero < x then result x else otherwise) =
      if Scalar.zero < y then result y else otherwise := by
  by_cases positive : Scalar.zero < x
  · have nonzero : ¬ (x == Scalar.zero) = true := fun zero =>
      OrderedScalar.not_beq_of_lt positive (OrderedScalar.beq_symm zero)
    rw [eq_of_alike alike nonzero]
  · have none : ¬ Scalar.zero < y := (OrderedScalar.lt_congr (.inl rfl) alike).not.mp positive
    rw [if_neg positive, if_neg none]

theorem alike_of_near {left right : UnpackedFloat} (near : Near left right) :
    Scalar.Alike (Float.ofModel (.pack left)) (Float.ofModel (.pack right)) := by
  cases near with
  | same => exact .inl rfl
  | zeros sign other =>
      cases sign <;> cases other
      · exact .inl rfl
      · exact .inr (by decide)
      · exact .inr (by decide)
      · exact .inl rfl

theorem sub_zeros (sign other : Sign) :
    ∃ result, UnpackedFloat.sub .binary64 (.zero sign) (.zero other) = .zero result := by
  cases sign <;> cases other <;> exact ⟨_, rfl⟩

theorem near_sub {left other right next : UnpackedFloat} (minuends : Near left other)
    (subtrahends : Near right next) :
    Near (UnpackedFloat.sub .binary64 left right) (UnpackedFloat.sub .binary64 other next) := by
  have zeros (first second third fourth : Sign) :
      Near (UnpackedFloat.sub .binary64 (.zero first) (.zero second))
        (UnpackedFloat.sub .binary64 (.zero third) (.zero fourth)) := by
    obtain ⟨result, difference⟩ := sub_zeros first second
    obtain ⟨otherResult, otherDifference⟩ := sub_zeros third fourth
    rw [difference, otherDifference]
    exact .zeros result otherResult
  cases minuends with
  | same =>
      cases subtrahends with
      | same => exact .same _
      | zeros second fourth =>
          cases left with
          | zero sign => exact zeros sign second sign fourth
          | notANumber => exact .same _
          | infinity sign => exact .same _
          | finite sign significand exponent positive => exact .same _
  | zeros first third =>
      cases subtrahends with
      | same =>
          cases right with
          | zero sign => exact zeros first sign third sign
          | notANumber => exact .same _
          | infinity sign => exact .same _
          | finite sign significand exponent positive => exact .same _
      | zeros second fourth => exact zeros first second third fourth

theorem near_mul {left other right next : UnpackedFloat} (factors : Near left other)
    (others : Near right next) :
    Near (UnpackedFloat.mul .binary64 left right) (UnpackedFloat.mul .binary64 other next) := by
  cases factors with
  | same =>
      cases others with
      | same => exact .same _
      | zeros second fourth =>
          cases left with
          | zero sign => exact .zeros _ _
          | notANumber => exact .same _
          | infinity sign => exact .same _
          | finite sign significand exponent positive => exact .zeros _ _
  | zeros first third =>
      cases others with
      | same =>
          cases right with
          | zero sign => exact .zeros _ _
          | notANumber => exact .same _
          | infinity sign => exact .same _
          | finite sign significand exponent positive => exact .zeros _ _
      | zeros second fourth => exact .zeros _ _

theorem near_div {left other : UnpackedFloat} (dividends : Near left other)
    (right : UnpackedFloat) :
    Near (UnpackedFloat.div .binary64 left right) (UnpackedFloat.div .binary64 other right) := by
  cases dividends with
  | same => exact .same _
  | zeros first third =>
      cases right with
      | zero sign => exact .same _
      | notANumber => exact .same _
      | infinity sign => exact .zeros _ _
      | finite sign significand exponent positive => exact .zeros _ _

theorem alike_sub {x y other next : Float} (minuends : Scalar.Alike x other)
    (subtrahends : Scalar.Alike y next) : Scalar.Alike (x - y) (other - next) :=
  alike_of_near (near_sub (near_of_alike minuends) (near_of_alike subtrahends))

theorem alike_mul {x y other next : Float} (factors : Scalar.Alike x other)
    (others : Scalar.Alike y next) : Scalar.Alike (x * y) (other * next) :=
  alike_of_near (near_mul (near_of_alike factors) (near_of_alike others))

theorem alike_div {x other : Float} (dividends : Scalar.Alike x other) (y : Float) :
    Scalar.Alike (x / y) (other / y) :=
  alike_of_near (near_div (near_of_alike dividends) y.toModel.unpack)

/-- Any number but negative zero. -/
def IsPlain (x : Float) : Prop :=
  x.toModel.unpack ≠ .zero .negative

theorem isPlain_zero : IsPlain Scalar.zero := by
  have zero : (Scalar.zero : Float).toModel.unpack = .zero .positive := rfl
  rw [IsPlain, zero]
  intro same
  cases same

theorem add_eq_of_near {start left right : UnpackedFloat} (plain : start ≠ .zero .negative)
    (near : Near left right) :
    UnpackedFloat.add .binary64 start left = UnpackedFloat.add .binary64 start right := by
  cases near with
  | same => rfl
  | zeros sign other =>
      cases start with
      | notANumber => rfl
      | infinity own => rfl
      | finite own significand exponent positive => rfl
      | zero own =>
          cases own with
          | negative => exact absurd rfl plain
          | positive => cases sign <;> cases other <;> rfl

/-- To a number that is not negative zero either zero can be added. -/
theorem add_eq_of_alike {x y other : Float} (plain : IsPlain x) (alike : Scalar.Alike y other) :
    x + y = x + other :=
  congrArg (fun sum => Float.ofModel (.pack sum)) (add_eq_of_near plain (near_of_alike alike))

/-- An exact sum that is rounded is zero only if it was, and then the zero is positive. -/
theorem unpack_normalize_ne (mantissa : Int) {exponent : Int} (least : -1074 ≤ exponent) :
    UnpackedFloat.unpack .binary64 (UnpackedFloat.pack .binary64
      (UnpackedFloat.normalize .binary64 mantissa exponent .positive)) ≠ .zero .negative := by
  have rounded (sign : Sign) {magnitude : Nat} (positive : 0 < magnitude) :
      UnpackedFloat.unpack .binary64 (UnpackedFloat.pack .binary64
        (UnpackedFloat.round .binary64 sign magnitude exponent)) ≠ .zero .negative := by
    intro zero
    have value := (units_roundExact sign positive least).value
    have size := magnitude_pos positive exponent
    have kept := two_pow_log2_le_nearestUnits size
    have infinite : 0 < infiniteMagnitude := magnitude_pos (by decide) 972
    have power := Nat.two_pow_pos (Binary64.magnitude magnitude exponent).log2
    rw [zero] at value
    have none := congrArg Int.natAbs value
    rw [natAbs_apply] at none
    have zeroUnits : (units (.zero .negative)).natAbs = 0 := rfl
    omega
  unfold UnpackedFloat.normalize
  cases order : compare mantissa 0 with
  | lt =>
      have negative := Int.compare_eq_lt.mp order
      exact rounded .negative (by omega)
  | eq =>
      change UnpackedFloat.unpack .binary64 (packedZero .binary64 .positive) ≠ _
      rw [unpack_packedZero]
      intro same
      cases same
  | gt =>
      have positive := Int.compare_eq_gt.mp order
      exact rounded .positive (by omega)

theorem unpack_pack_unpack (x : Float) :
    UnpackedFloat.unpack .binary64 (UnpackedFloat.pack .binary64 x.toModel.unpack) =
      x.toModel.unpack :=
  congrArg _ (pack_unpack_of_valid x.toModel.valid)

theorem unpack_packedInfinity_ne (sign : Sign) : UnpackedFloat.unpack .binary64
    (UnpackedFloat.pack .binary64 (.infinity sign)) ≠ .zero .negative := by
  have kept : UnpackedFloat.unpack .binary64 (UnpackedFloat.pack .binary64 (.infinity sign)) =
      .infinity sign := by
    cases sign <;> rfl
  rw [kept]
  intro same
  cases same

theorem unpack_packedNaN_ne : UnpackedFloat.unpack .binary64
    (UnpackedFloat.pack .binary64 .notANumber) ≠ .zero .negative := by
  change UnpackedFloat.unpack .binary64 (packedNaN .binary64) ≠ _
  rw [unpack_packedNaN]
  intro same
  cases same

theorem add_infinities (sign other : Sign) :
    UnpackedFloat.add .binary64 (.infinity sign) (.infinity other) = .infinity sign ∨
      UnpackedFloat.add .binary64 (.infinity sign) (.infinity other) = .notANumber := by
  cases sign <;> cases other
  · exact .inl rfl
  · exact .inr rfl
  · exact .inr rfl
  · exact .inl rfl

/-- What a sum is before it is packed. -/
theorem add_cases {left right : UnpackedFloat} (leftForm : Canonical left)
    (rightForm : Canonical right) (plain : left ≠ .zero .negative) :
    UnpackedFloat.add .binary64 left right = .notANumber ∨
      (∃ sign, UnpackedFloat.add .binary64 left right = .infinity sign) ∨
      UnpackedFloat.add .binary64 left right = left ∨
      (UnpackedFloat.add .binary64 left right = right ∧ right ≠ .zero .negative) ∨
      ∃ mantissa exponent, -1074 ≤ exponent ∧ UnpackedFloat.add .binary64 left right =
        UnpackedFloat.normalize .binary64 mantissa exponent .positive := by
  cases leftForm with
  | notANumber => exact .inl rfl
  | infinity sign =>
      cases rightForm with
      | notANumber => exact .inl rfl
      | infinity other =>
          rcases add_infinities sign other with kept | undefined
          · exact .inr (.inl ⟨sign, kept⟩)
          · exact .inl undefined
      | zero other => exact .inr (.inl ⟨sign, rfl⟩)
      | finite other significand exponent positive form => exact .inr (.inl ⟨sign, rfl⟩)
  | zero sign =>
      cases rightForm with
      | notANumber => exact .inl rfl
      | infinity other => exact .inr (.inl ⟨other, rfl⟩)
      | zero other =>
          cases sign with
          | negative => exact absurd rfl plain
          | positive => cases other <;> exact .inr (.inr (.inl rfl))
      | finite other significand exponent positive form =>
          exact .inr (.inr (.inr (.inl ⟨rfl, fun same => by cases same⟩)))
  | finite sign significand exponent positive form =>
      cases rightForm with
      | notANumber => exact .inl rfl
      | infinity other => exact .inr (.inl ⟨other, rfl⟩)
      | zero other => exact .inr (.inr (.inl rfl))
      | finite other otherSignificand otherExponent otherPositive otherForm =>
          have least : -1074 ≤ min exponent otherExponent := by
            have own := form.least
            have others := otherForm.least
            omega
          exact .inr (.inr (.inr (.inr ⟨_, _, least, rfl⟩)))

/-- A sum is negative zero only if both numbers are. -/
theorem isPlain_add {x : Float} (plain : IsPlain x) (y : Float) : IsPlain (x + y) := by
  have sum : (x + y).toModel.unpack = UnpackedFloat.unpack .binary64 (UnpackedFloat.pack .binary64
      (UnpackedFloat.add .binary64 x.toModel.unpack y.toModel.unpack)) := rfl
  have leftForm : Canonical x.toModel.unpack := canonical_unpack _
  have rightForm : Canonical y.toModel.unpack := canonical_unpack _
  unfold IsPlain
  rw [sum]
  rcases add_cases leftForm rightForm plain with undefined | ⟨sign, infinite⟩ | left | ⟨right, other⟩ |
    ⟨mantissa, exponent, least, rounded⟩
  · rw [undefined]
    exact unpack_packedNaN_ne
  · rw [infinite]
    exact unpack_packedInfinity_ne sign
  · rw [left, unpack_pack_unpack]
    exact plain
  · rw [right, unpack_pack_unpack]
    exact other
  · rw [rounded]
    exact unpack_normalize_ne mantissa least

end Binary64

end HostTimeline
