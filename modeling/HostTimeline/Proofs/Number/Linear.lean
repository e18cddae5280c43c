import HostTimeline.Proofs.Number.Finite

/-!
Sorting that leaves no choice.  The order that numbers are sorted in tells all of them apart,
also those that are equal by value, so sorted numbers do not depend on the order they came in
(`sort_eq_of_perm`), nor do items with distinct keys (`sortOn_eq_of_perm`).  A NaN comes last
(`not_precedes_of_isNaN`).
-/

namespace HostTimeline

/-- Numbers that sorting tells apart. -/
class LinearScalar (α : Type) [Scalar α] : Prop extends OrderedScalar α where
  precedes_antisymm {left right : α} : Scalar.precedes left right = true →
    Scalar.precedes right left = true → left = right

namespace LinearScalar

open OrderedScalar

variable {α : Type} [Scalar α] [LinearScalar α]

theorem sort_eq_of_perm {values others : List α} (same : values.Perm others) :
    Scalar.sort values = Scalar.sort others :=
  stableSort_eq_of_perm precedes_total (fun _ _ _ => precedes_trans) same
    fun _ _ _ _ => precedes_antisymm

theorem sortOn_eq_of_perm {β : Type} {key : β → α} {items others : List β}
    (same : items.Perm others) (distinct : (items.map key).Nodup) :
    Scalar.sortOn key items = Scalar.sortOn key others := by
  refine stableSort_eq_of_perm (fun left right => precedes_total (key left) (key right))
    (fun _ _ _ => precedes_trans) same ?_
  intro left leftIn right rightIn before after
  exact List.inj_on_of_nodup_map distinct leftIn rightIn (precedes_antisymm before after)

end LinearScalar

instance : LinearScalar Rat where
  precedes_antisymm before after :=
    Rat.le_antisymm (of_decide_eq_true before) (of_decide_eq_true after)

namespace Binary64

theorem rank_injective {x y : Float} (same : rank x = rank y) : x = y := by
  have bound := x.toBits.toNat_lt
  have otherBound := y.toBits.toNat_lt
  have value : signBit.toNat = 2 ^ 63 := rfl
  have ranks := congrArg UInt64.toNat same
  rw [toNat_rank, toNat_rank] at ranks
  simp only [UInt64.lt_iff_toNat_lt, value] at ranks
  have bits : x.toBits.toNat = y.toBits.toNat := by
    split at ranks <;> split at ranks <;> omega
  exact Float.toBits_inj.mp (UInt64.toNat_inj.mp bits)

/-- Sorting puts a NaN behind every number. -/
theorem not_precedes_of_isNaN {x y : Float} (undefined : x.isNaN = true)
    (number : y.isNaN = false) : ¬ Scalar.precedes x y = true := by
  intro precedes
  rw [Float.isNaN_eq_decide_eq_nan] at undefined
  have le := UInt64.le_iff_toNat_le.mp (of_decide_eq_true precedes)
  have last : (rank Float.nan).toNat = 0x7FF8000000000000 + 2 ^ 63 := by decide
  rw [of_decide_eq_true undefined, last, toNat_rank] at le
  have bounded := y.toBits.toNat_lt
  split at le
  next positive =>
    have size := ticks_eq number
    rw [if_pos positive] at size
    have large : magnitudeOfBits 0x7FF8000000000000 ≤ magnitudeOfBits y.toBits.toNat :=
      magnitudeOfBits_le (by omega)
    have infinite : infiniteMagnitude < magnitudeOfBits 0x7FF8000000000000 := by
      have scale : (2047 : Nat) - 1 = ((972 : Int) + 1074).toNat := rfl
      rw [show 0x7FF8000000000000 = 2047 * 2 ^ 52 + 2 ^ 51 from rfl,
        magnitudeOfBits_fields 2047 (by decide), if_neg (by decide), scale]
      unfold infiniteMagnitude magnitude
      refine Nat.mul_lt_mul_of_pos_right ?_ (Nat.two_pow_pos _)
      decide
    have most := natAbs_ticks_le y
    omega
  next negative =>
    rw [UInt64.lt_iff_toNat_lt, show signBit.toNat = 2 ^ 63 from rfl] at negative
    omega

end Binary64

instance : LinearScalar Float where
  precedes_antisymm before after :=
    Binary64.rank_injective
      (UInt64.le_antisymm (of_decide_eq_true before) (of_decide_eq_true after))

end HostTimeline
