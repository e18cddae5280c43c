import HostTimeline.Track
import HostTimeline.Proofs.Number.Greatest
import HostTimeline.Proofs.Number.SignedZero
import HostTimeline.Proofs.Steps

/-!
The most that a host offers depends on its steps alone.
-/

namespace HostTimeline

open Observation OrderedScalar

theorem Observation.alike_offered {left right : Observation Float} (agrees : left.Agrees right)
    (resource : Resource) : Scalar.Alike (left.offered resource) (right.offered resource) := by
  cases resource with
  | memory => exact .inr agrees.memory
  | slots => exact .inl (congrArg Scalar.ofInt agrees.slots)

/-- The most that was offered, once an observation is known. -/
def Observation.offer (resource : Resource) (greatest : Float) (observation : Observation Float) :
    Float :=
  Scalar.greater greatest (observation.offered resource)

theorem Observation.ignoresRepeats_offer (resource : Resource) :
    IgnoresRepeats (offer resource) Scalar.Alike fun greatest kept =>
      ∀ value, Scalar.Alike value (kept.offered resource) →
        Scalar.Alike (Scalar.greater greatest value) greatest where
  refl _ := .inl rfl
  trans := alike_trans
  moves {left right} next same := alike_greater same (.inl rfl)
  enters greatest {next} _ := fun _ values => alike_greater_again greatest values
  stays := by
    intro greatest kept next here agrees
    have unchanged := here _ (alike_offered agrees resource)
    refine ⟨unchanged, fun value values => ?_⟩
    exact alike_trans (alike_greater unchanged (.inl rfl))
      (alike_trans (here value values) (alike_symm unchanged))

/-- Hosts with the same steps offer the same at most. -/
theorem Observation.alike_capacity (resource : Resource) {left right : List (Observation Float)}
    (leftComparable : ∀ observation ∈ left, observation.IsComparable)
    (rightComparable : ∀ observation ∈ right, observation.IsComparable)
    (same : SameSteps left right) :
    Scalar.Alike (Scalar.maxWithZero (left.map fun observation => observation.offered resource))
      (Scalar.maxWithZero (right.map fun observation => observation.offered resource)) := by
  have ignores := ignoresRepeats_offer resource
  have stepped : Scalar.Alike ((steps left).foldl (offer resource) Scalar.zero)
      ((steps right).foldl (offer resource) Scalar.zero) :=
    List.rel_foldl (P := Scalar.Alike) (R := Matches)
      (fun _ _ both _ _ matched => alike_greater both (alike_offered matched.agrees resource))
      (.inl rfl) same
  unfold Scalar.maxWithZero
  rw [List.foldl_map, List.foldl_map]
  exact alike_trans (ignores.foldl_steps leftComparable Scalar.zero)
    (alike_trans stepped (alike_symm (ignores.foldl_steps rightComparable Scalar.zero)))

end HostTimeline
