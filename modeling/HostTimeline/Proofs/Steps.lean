import HostTimeline.Condense
import HostTimeline.Proofs.Number.Order
import Mathlib.Data.List.Destutter

/-!
The steps of a host.  Consecutive observations that agree on every field make one step, which
begins at the first of them.
-/

namespace HostTimeline

theorem rel_orElse {β : Type} {related : β → β → Prop} {left right : Option β} {next other : β}
    (known : Option.Rel related left right) (same : related next other) :
    Option.Rel related (left <|> some next) (right <|> some other) := by
  cases known with
  | none => exact .some same
  | some known => exact .some known

namespace Observation

variable {α : Type}

/-- The last of the observations, or the one before them. -/
def lastOf (current : Observation α) (rest : List (Observation α)) : Observation α :=
  rest.getLast?.getD current

@[simp]
theorem lastOf_cons (current next : Observation α) (rest : List (Observation α)) :
    lastOf current (next :: rest) = lastOf next rest := by
  rw [lastOf, List.getLast?_cons, Option.getD_some]
  rfl

variable [Scalar α]

/-- Equal on every field but the time. -/
structure Agrees (left right : Observation α) : Prop where
  state : left.state = right.state
  memoryUsed : (left.memoryUsed == right.memoryUsed) = true
  memory : (left.memory == right.memory) = true
  slotsUsed : left.slotsUsed = right.slotsUsed
  slots : left.slots = right.slots

theorem agree_iff {left right : Observation α} :
    Criteria.everyField.agree left right = true ↔ left.Agrees right := by
  simp only [Criteria.agree, Criteria.everyField, Bool.not_true, Bool.false_or, Bool.and_eq_true,
    decide_eq_true_eq]
  constructor
  · intro ⟨⟨⟨⟨state, memoryUsed⟩, memory⟩, slotsUsed⟩, slots⟩
    exact ⟨state, memoryUsed, memory, slotsUsed, slots⟩
  · intro agrees
    exact ⟨⟨⟨⟨agrees.state, agrees.memoryUsed⟩, agrees.memory⟩, agrees.slotsUsed⟩, agrees.slots⟩

/-- Whether `next` tells anything new after `kept`. -/
def Differs (kept next : Observation α) : Prop :=
  ¬ next.Agrees kept

instance (left right : Observation α) : Decidable (left.Agrees right) :=
  decidable_of_iff _ agree_iff

instance : DecidableRel (Differs (α := α)) :=
  fun _ _ => instDecidableNot

/-- Whether two observations were made at different times. -/
def Apart (left right : Observation α) : Prop :=
  ¬ (left.time == right.time) = true

instance : DecidableRel (Apart (α := α)) :=
  fun _ _ => instDecidableNot

/-- The observations that a step begins with. -/
def steps (observations : List (Observation α)) : List (Observation α) :=
  observations.destutter Differs

/-- The observations that a step begins with, after one in the step of `current`. -/
def changes (current : Observation α) (rest : List (Observation α)) : List (Observation α) :=
  (rest.destutter' Differs current).tail

/-- At the same time by value, and equal on every other field. -/
structure Matches (left right : Observation α) : Prop where
  time : (left.time == right.time) = true
  agrees : left.Agrees right

/-- The same steps, which begin at the same times. -/
def SameSteps (left right : List (Observation α)) : Prop :=
  List.Forall₂ Matches (steps left) (steps right)

@[simp]
theorem agrees_moveTo {left right : Observation α} {time : α} :
    (left.moveTo time).Agrees right ↔ left.Agrees right :=
  ⟨fun agrees => { agrees with }, fun agrees => { agrees with }⟩

@[simp]
theorem moveTo_agrees {left right : Observation α} {time : α} :
    left.Agrees (right.moveTo time) ↔ left.Agrees right :=
  ⟨fun agrees => { agrees with }, fun agrees => { agrees with }⟩

theorem destutter'_eq (current : Observation α) (rest : List (Observation α)) :
    rest.destutter' Differs current = current :: changes current rest := by
  have front : (rest.destutter' Differs current).head? = some current := by
    induction rest with
    | nil => rfl
    | cons next rest ih =>
        rw [List.destutter'_cons]
        split
        · rfl
        · exact ih
  exact (List.cons_head?_tail front).symm

theorem steps_cons (first : Observation α) (rest : List (Observation α)) :
    steps (first :: rest) = first :: changes first rest :=
  destutter'_eq first rest

@[simp]
theorem changes_nil (current : Observation α) : changes current [] = [] :=
  rfl

theorem changes_of_agrees {current next : Observation α} (agrees : next.Agrees current)
    (rest : List (Observation α)) : changes current (next :: rest) = changes current rest := by
  unfold changes
  rw [List.destutter'_cons_neg _ (not_not.mpr agrees)]

theorem changes_of_differs {current next : Observation α} (differs : current.Differs next)
    (rest : List (Observation α)) :
    changes current (next :: rest) = next :: changes next rest := by
  rw [changes, List.destutter'_cons_pos _ differs, List.tail_cons, destutter'_eq]

theorem changes_moveTo (current : Observation α) (time : α) (rest : List (Observation α)) :
    changes (current.moveTo time) rest = changes current rest := by
  induction rest with
  | nil => rfl
  | cons next rest ih =>
      by_cases agrees : next.Agrees current
      · rw [changes_of_agrees agrees, changes_of_agrees (moveTo_agrees.mpr agrees), ih]
      · rw [changes_of_differs agrees, changes_of_differs (mt moveTo_agrees.mp agrees)]

theorem changes_sublist (current : Observation α) (rest : List (Observation α)) :
    (changes current rest).Sublist rest := by
  induction rest generalizing current with
  | nil => exact .slnil
  | cons next rest ih =>
      by_cases agrees : next.Agrees current
      · rw [changes_of_agrees agrees]
        exact (ih current).trans (List.sublist_cons_self next rest)
      · rw [changes_of_differs agrees]
        exact (ih next).cons_cons next

theorem length_steps_le (observations : List (Observation α)) :
    (steps observations).length ≤ observations.length :=
  (List.destutter_sublist Differs observations).length_le

/-- What begins a step still does if all else is left out. -/
theorem changes_changes (current : Observation α) (rest : List (Observation α)) :
    changes current (changes current rest) = changes current rest := by
  induction rest generalizing current with
  | nil => rfl
  | cons next rest ih =>
      by_cases agrees : next.Agrees current
      · rw [changes_of_agrees agrees, ih]
      · rw [changes_of_differs agrees, changes_of_differs agrees, ih]

theorem changes_append_of_agrees {current : Observation α} {repeats : List (Observation α)}
    (agree : ∀ observation ∈ repeats, observation.Agrees current) (rest : List (Observation α)) :
    changes current (repeats ++ rest) = changes current rest := by
  induction repeats with
  | nil => rfl
  | cons next repeats ih =>
      rw [List.cons_append, changes_of_agrees (agree next List.mem_cons_self)]
      exact ih fun observation member => agree observation (List.mem_cons_of_mem next member)

/-- An observation whose numbers can be compared. -/
structure IsComparable (observation : Observation α) : Prop where
  time : observation.time ≤ observation.time
  memory : observation.memory ≤ observation.memory
  memoryUsed : observation.memoryUsed ≤ observation.memoryUsed

/-- A fold that observations of the current step change in nothing that counts. -/
structure IgnoresRepeats {σ : Type} (advance : σ → Observation α → σ) (related : σ → σ → Prop)
    (inStep : σ → Observation α → Prop) : Prop where
  refl : ∀ state, related state state
  trans : ∀ {left middle right}, related left middle → related middle right → related left right
  moves : ∀ {left right} next, related left right →
    related (advance left next) (advance right next)
  enters : ∀ state {next}, next.IsComparable → inStep (advance state next) next
  stays : ∀ {state kept next}, inStep state kept → next.Agrees kept →
    related (advance state next) state ∧ inStep (advance state next) kept

section Fold

variable {σ : Type} {advance : σ → Observation α → σ} {related : σ → σ → Prop}
  {inStep : σ → Observation α → Prop}

theorem IgnoresRepeats.foldl_changes (ignores : IgnoresRepeats advance related inStep)
    {current : Observation α} {rest : List (Observation α)} {left right : σ}
    (comparable : ∀ observation ∈ rest, observation.IsComparable)
    (same : related left right) (here : inStep left current) :
    related (rest.foldl advance left) ((changes current rest).foldl advance right) := by
  induction rest generalizing current left right with
  | nil => exact same
  | cons next rest ih =>
      have later := fun observation member =>
        comparable observation (List.mem_cons_of_mem next member)
      rw [List.foldl_cons]
      by_cases agrees : next.Agrees current
      · obtain ⟨unchanged, stillHere⟩ := ignores.stays here agrees
        rw [changes_of_agrees agrees]
        exact ih later (ignores.trans unchanged same) stillHere
      · rw [changes_of_differs agrees, List.foldl_cons]
        exact ih later (ignores.moves next same)
          (ignores.enters left (comparable next List.mem_cons_self))

/-- Such a fold can as well be taken over the steps alone. -/
theorem IgnoresRepeats.foldl_steps (ignores : IgnoresRepeats advance related inStep)
    {observations : List (Observation α)}
    (comparable : ∀ observation ∈ observations, observation.IsComparable) (start : σ) :
    related (observations.foldl advance start) ((steps observations).foldl advance start) := by
  cases observations with
  | nil => exact ignores.refl start
  | cons first rest =>
      rw [steps_cons]
      exact ignores.foldl_changes
        (fun observation member => comparable observation (List.mem_cons_of_mem first member))
        (ignores.refl _) (ignores.enters start (comparable first List.mem_cons_self))

end Fold

variable [OrderedScalar α]

open OrderedScalar

theorem Agrees.symm {left right : Observation α} (agrees : left.Agrees right) :
    right.Agrees left where
  state := agrees.state.symm
  memoryUsed := beq_symm agrees.memoryUsed
  memory := beq_symm agrees.memory
  slotsUsed := agrees.slotsUsed.symm
  slots := agrees.slots.symm

theorem Agrees.trans {left middle right : Observation α} (first : left.Agrees middle)
    (second : middle.Agrees right) : left.Agrees right where
  state := first.state.trans second.state
  memoryUsed := beq_trans first.memoryUsed second.memoryUsed
  memory := beq_trans first.memory second.memory
  slotsUsed := first.slotsUsed.trans second.slotsUsed
  slots := first.slots.trans second.slots

theorem IsComparable.agrees {observation : Observation α} (comparable : observation.IsComparable) :
    observation.Agrees observation where
  state := rfl
  memoryUsed := beq_self comparable.memoryUsed
  memory := beq_self comparable.memory
  slotsUsed := rfl
  slots := rfl

theorem IsComparable.matches_self {observation : Observation α}
    (comparable : observation.IsComparable) : observation.Matches observation where
  time := beq_self comparable.time
  agrees := comparable.agrees

theorem forall₂_matches_self {observations : List (Observation α)}
    (comparable : ∀ observation ∈ observations, observation.IsComparable) :
    List.Forall₂ Matches observations observations :=
  List.forall₂_same.mpr fun observation member => (comparable observation member).matches_self

theorem IsComparable.matches_moveTo {observation : Observation α}
    (comparable : observation.IsComparable) {time other : α} (same : (time == other) = true) :
    (observation.moveTo time).Matches (observation.moveTo other) where
  time := same
  agrees := agrees_moveTo.mpr (moveTo_agrees.mpr comparable.agrees)

theorem vacant_agrees (first second : α) (state : PowerState) :
    (vacant first state).Agrees (vacant second state) where
  state := rfl
  memoryUsed := beq_self zero_le_zero
  memory := beq_self zero_le_zero
  slotsUsed := rfl
  slots := rfl

theorem differs_congr {left right next : Observation α} (agrees : left.Agrees right) :
    left.Differs next ↔ right.Differs next :=
  not_congr ⟨fun same => same.trans agrees, fun same => same.trans agrees.symm⟩

/-- Whether the last observation begins a step depends on the one before it. -/
theorem changes_concat (current : Observation α) (rest : List (Observation α))
    (last : Observation α) : changes current (rest ++ [last]) =
      changes current rest ++ if (lastOf current rest).Differs last then [last] else [] := by
  induction rest generalizing current with
  | nil =>
      change changes current [last] = if current.Differs last then [last] else []
      by_cases differs : current.Differs last
      · rw [changes_of_differs differs, if_pos differs, changes_nil]
      · rw [changes_of_agrees (not_not.mp differs), if_neg differs, changes_nil]
  | cons next rest ih =>
      rw [List.cons_append, lastOf_cons]
      by_cases agrees : next.Agrees current
      · rw [changes_of_agrees agrees, changes_of_agrees agrees, ih]
        have same : (lastOf current rest).Differs last ↔ (lastOf next rest).Differs last := by
          unfold lastOf
          cases rest.getLast? with
          | none => exact differs_congr agrees.symm
          | some _ => exact Iff.rfl
        simp only [same]
      · rw [changes_of_differs agrees, changes_of_differs agrees, ih]
        rfl

theorem lastOf_agrees {left right : Observation α} {rest : List (Observation α)}
    (agrees : left.Agrees right) (comparable : ∀ observation ∈ rest, observation.IsComparable) :
    (lastOf left rest).Agrees (lastOf right rest) := by
  unfold lastOf
  cases found : rest.getLast? with
  | none => exact agrees
  | some last => exact (comparable last (List.mem_of_getLast? found)).agrees

end Observation

end HostTimeline
