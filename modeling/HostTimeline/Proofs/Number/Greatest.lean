import HostTimeline.Proofs.Number.Order
import Mathlib.Data.List.Forall2

/-!
The greatest of a list of numbers and zero.  It is not below any of the numbers that can be
compared, and it is one of them or zero (`isMost_maxWithZero`), which leaves no choice of its
value (`Scalar.IsMost.le`), nor does the choice among equal numbers (`alike_maxWithZero`).
-/

namespace HostTimeline

open OrderedScalar

namespace Scalar

variable {α : Type} [Scalar α]

/-- The greater of two numbers; of equal ones the second counts. -/
def greater (greatest value : α) : α :=
  if greatest ≤ value then value else greatest

/-- The greatest of the values and zero; numbers that cannot be compared are passed over. -/
structure IsMost (values : List α) (most : α) : Prop where
  atLeastZero : Scalar.zero ≤ most
  above : ∀ value ∈ values, value ≤ value → value ≤ most
  attained : most = Scalar.zero ∨ most ∈ values

end Scalar

variable {α : Type} [Scalar α] {greatest value other next : α}

theorem foldl_greater_mem (values : List α) (greatest : α) :
    values.foldl Scalar.greater greatest ∈ greatest :: values := by
  induction values generalizing greatest with
  | nil => exact List.mem_cons_self
  | cons first rest ih =>
      have either : Scalar.greater greatest first = greatest ∨
          Scalar.greater greatest first = first := by
        unfold Scalar.greater
        split
        · exact .inr rfl
        · exact .inl rfl
      have member := ih (Scalar.greater greatest first)
      rw [List.foldl_cons]
      rcases List.mem_cons.mp member with kept | later
      · rw [kept]
        exact List.mem_cons.mpr (either.imp_right fun same => List.mem_cons.mpr (.inl same))
      · exact List.mem_cons_of_mem _ (List.mem_cons_of_mem _ later)

variable [OrderedScalar α]

theorem le_greater (comparable : greatest ≤ greatest) (value : α) :
    greatest ≤ Scalar.greater greatest value ∧
      (value ≤ value → value ≤ Scalar.greater greatest value) := by
  unfold Scalar.greater
  split
  next le => exact ⟨le, id⟩
  next above => exact ⟨comparable, fun other => le_of_lt (lt_of_not_le comparable other above)⟩

theorem le_foldl_greater (values : List α) (comparable : greatest ≤ greatest) :
    greatest ≤ values.foldl Scalar.greater greatest ∧
      ∀ value ∈ values, value ≤ value → value ≤ values.foldl Scalar.greater greatest := by
  induction values generalizing greatest with
  | nil => exact ⟨comparable, fun value member => by cases member⟩
  | cons first rest ih =>
      obtain ⟨grown, above⟩ := le_greater comparable first
      obtain ⟨kept, members⟩ := ih (le_self_of_le grown).2
      refine ⟨le_trans grown kept, fun value member other => ?_⟩
      rcases List.mem_cons.mp member with isFirst | later
      · subst isFirst
        exact le_trans (above other) kept
      · exact members value later other

theorem isMost_maxWithZero (values : List α) : Scalar.IsMost values (Scalar.maxWithZero values) := by
  obtain ⟨atLeastZero, above⟩ := le_foldl_greater values (OrderedScalar.zero_le_zero (α := α))
  exact ⟨atLeastZero, above, List.mem_cons.mp (foldl_greater_mem values Scalar.zero)⟩

/-- The greatest number is told by its value. -/
theorem Scalar.IsMost.le {values : List α} {most other : α} (first : Scalar.IsMost values most)
    (second : Scalar.IsMost values other) : most ≤ other := by
  rcases first.attained with rfl | member
  · exact second.atLeastZero
  · exact second.above most member (le_self_of_le first.atLeastZero).2

theorem alike_greater (both : Scalar.Alike greatest other) (values : Scalar.Alike value next) :
    Scalar.Alike (Scalar.greater greatest value) (Scalar.greater other next) := by
  unfold Scalar.greater
  by_cases le : greatest ≤ value
  · rw [if_pos le, if_pos ((le_congr both values).mp le)]
    exact values
  · rw [if_neg le, if_neg ((le_congr both values).not.mp le)]
    exact both

/-- A value that was taken in does not count again. -/
theorem alike_greater_again (greatest : α) (values : Scalar.Alike next value) :
    Scalar.Alike (Scalar.greater (Scalar.greater greatest value) next)
      (Scalar.greater greatest value) := by
  unfold Scalar.greater
  by_cases le : greatest ≤ value
  · rw [if_pos le]
    split
    · exact values
    · exact .inl rfl
  · rw [if_neg le, if_neg ((le_congr (.inl rfl) values).not.mpr le)]
    exact .inl rfl

/-- The greatest of numbers that are equal by value is the same by value. -/
theorem alike_maxWithZero {left right : List α} (same : List.Forall₂ Scalar.Alike left right) :
    Scalar.Alike (Scalar.maxWithZero left) (Scalar.maxWithZero right) :=
  List.rel_foldl (P := Scalar.Alike) (R := Scalar.Alike)
    (fun _ _ both _ _ values => alike_greater both values) (.inl rfl) same

end HostTimeline
