import HostTimeline.Condense
import HostTimeline.Proofs.Steps

/-!
Which observations condensing retains.  With every field selected these are the observations
that a step begins with, exactly if no two successive steps begin at the same time
(`condenseFrom_eq_steps`, `apart_of_length_le`); of the observations in a stretch of time they
depend on the last observation before it too (`filter_condenseSorted`).
-/

namespace HostTimeline.Criteria

variable {α : Type} [Scalar α]

theorem mem_condenseFrom {criteria : Criteria} {kept observation : Observation α}
    {rest : List (Observation α)} (member : observation ∈ criteria.condenseFrom kept rest) :
    observation ∈ kept :: rest := by
  induction rest generalizing kept with
  | nil => exact member
  | cons next rest ih =>
      unfold condenseFrom at member
      split at member
      · rcases List.mem_cons.mp (ih member) with isKept | later
        · exact isKept ▸ List.mem_cons_self
        · exact List.mem_cons_of_mem _ (List.mem_cons_of_mem _ later)
      · split at member
        · exact List.mem_cons_of_mem _ (ih member)
        · rcases List.mem_cons.mp member with isKept | later
          · exact isKept ▸ List.mem_cons_self
          · exact List.mem_cons_of_mem _ (ih later)

/-- What is retained was reported, up to the rounding of its time. -/
theorem exists_of_mem_condense {criteria : Criteria} {observation : Observation α}
    {observations : List (Observation α)} (member : observation ∈ criteria.condense observations) :
    ∃ reported ∈ observations, observation = criteria.place reported := by
  have placed : observation ∈ (Observation.sortByTime observations).map criteria.place := by
    unfold condense condenseSorted at member
    split at member
    · cases member
    next first rest sorted => exact sorted ▸ mem_condenseFrom member
  obtain ⟨reported, found, same⟩ := List.mem_map.mp placed
  exact ⟨reported, mem_stableSort.mp found, same.symm⟩

theorem condenseFrom_sublist (criteria : Criteria) (kept : Observation α)
    (rest : List (Observation α)) : (criteria.condenseFrom kept rest).Sublist (kept :: rest) := by
  induction rest generalizing kept with
  | nil => exact .refl _
  | cons next rest ih =>
      unfold condenseFrom
      split
      · exact (ih kept).trans ((List.sublist_cons_self next rest).cons_cons kept)
      · split
        · exact (ih next).trans (List.sublist_cons_self kept (next :: rest))
        · exact (ih next).cons_cons kept

theorem condenseSorted_sublist (criteria : Criteria) (observations : List (Observation α)) :
    (criteria.condenseSorted observations).Sublist observations := by
  cases observations with
  | nil => exact .slnil
  | cons first rest => exact criteria.condenseFrom_sublist first rest

theorem condenseFrom_ne_nil (criteria : Criteria) (kept : Observation α)
    (rest : List (Observation α)) : criteria.condenseFrom kept rest ≠ [] := by
  induction rest generalizing kept with
  | nil => exact List.cons_ne_nil kept []
  | cons next rest ih =>
      unfold condenseFrom
      split
      · exact ih kept
      · split
        · exact ih next
        · exact List.cons_ne_nil kept _

open Observation

theorem condenseFrom_of_agrees {kept next : Observation α} (agrees : next.Agrees kept)
    (rest : List (Observation α)) :
    everyField.condenseFrom kept (next :: rest) = everyField.condenseFrom kept rest := by
  rw [condenseFrom, if_pos (agree_iff.mpr agrees)]

theorem condenseFrom_of_replaced {kept next : Observation α} (differs : kept.Differs next)
    (same : (kept.time == next.time) = true) (rest : List (Observation α)) :
    everyField.condenseFrom kept (next :: rest) = everyField.condenseFrom next rest := by
  rw [condenseFrom, if_neg (mt agree_iff.mp differs), if_pos same]

theorem condenseFrom_of_apart {kept next : Observation α} (differs : kept.Differs next)
    (apart : kept.Apart next) (rest : List (Observation α)) :
    everyField.condenseFrom kept (next :: rest) = kept :: everyField.condenseFrom next rest := by
  rw [condenseFrom, if_neg (mt agree_iff.mp differs), if_neg apart]

theorem length_condenseFrom_le (kept : Observation α) (rest : List (Observation α)) :
    (everyField.condenseFrom kept rest).length ≤ (steps (kept :: rest)).length := by
  rw [steps_cons]
  induction rest generalizing kept with
  | nil => exact Nat.le_refl _
  | cons next rest ih =>
      by_cases agrees : next.Agrees kept
      · rw [condenseFrom_of_agrees agrees, changes_of_agrees agrees]
        exact ih kept
      · rw [changes_of_differs agrees]
        by_cases same : (kept.time == next.time) = true
        · rw [condenseFrom_of_replaced agrees same]
          exact Nat.le_succ_of_le (ih next)
        · rw [condenseFrom_of_apart agrees same]
          exact Nat.succ_le_succ (ih next)

theorem condenseFrom_eq_steps {kept : Observation α} {rest : List (Observation α)}
    (apart : (steps (kept :: rest)).IsChain Apart) :
    everyField.condenseFrom kept rest = steps (kept :: rest) := by
  rw [steps_cons] at apart ⊢
  induction rest generalizing kept with
  | nil => rfl
  | cons next rest ih =>
      by_cases agrees : next.Agrees kept
      · rw [changes_of_agrees agrees] at apart ⊢
        rw [condenseFrom_of_agrees agrees, ih apart]
      · rw [changes_of_differs agrees] at apart ⊢
        obtain ⟨here, later⟩ := List.isChain_cons_cons.mp apart
        rw [condenseFrom_of_apart agrees here, ih later]

/-- If as many observations are retained as there are steps, no two successive steps begin at
the same time. -/
theorem apart_of_length_le {kept : Observation α} {rest : List (Observation α)}
    (long : (steps (kept :: rest)).length ≤ (everyField.condenseFrom kept rest).length) :
    (steps (kept :: rest)).IsChain Apart := by
  rw [steps_cons] at long ⊢
  induction rest generalizing kept with
  | nil => exact .singleton kept
  | cons next rest ih =>
      by_cases agrees : next.Agrees kept
      · rw [condenseFrom_of_agrees agrees, changes_of_agrees agrees] at long
        rw [changes_of_agrees agrees]
        exact ih long
      · rw [changes_of_differs agrees] at long ⊢
        by_cases same : (kept.time == next.time) = true
        · rw [condenseFrom_of_replaced agrees same] at long
          have short := length_condenseFrom_le next rest
          rw [steps_cons] at short
          exact absurd (Nat.le_trans long short) (Nat.not_succ_le_self _)
        · rw [condenseFrom_of_apart agrees same] at long
          exact List.isChain_cons_cons.mpr ⟨same, ih (Nat.le_of_succ_le_succ long)⟩

/-- Of the observations after the given one, those from the first that differs from it on. -/
def entered : Option (Observation α) → List (Observation α) → List (Observation α)
  | none, rest => rest
  | some previous, rest => rest.dropWhile fun next => decide (next.Agrees previous)

theorem entered_of_agrees {previous next : Observation α} (agrees : next.Agrees previous)
    (rest : List (Observation α)) :
    entered (some previous) (next :: rest) = entered (some previous) rest := by
  simp [entered, agrees]

theorem entered_of_differs {previous next : Observation α} (differs : previous.Differs next)
    (rest : List (Observation α)) : entered (some previous) (next :: rest) = next :: rest := by
  unfold Differs at differs
  simp [entered, differs]

theorem mem_of_mem_entered {previous : Option (Observation α)} {rest : List (Observation α)}
    {observation : Observation α} (member : observation ∈ entered previous rest) :
    observation ∈ rest := by
  cases previous with
  | none => exact member
  | some previous => exact (List.dropWhile_sublist _).subset member

theorem entered_append (previous : Option (Observation α)) (within after : List (Observation α)) :
    ∃ later, (∀ observation ∈ later, observation ∈ after) ∧
      entered previous (within ++ after) = entered previous within ++ later ∧
      (entered previous within ≠ [] → later = after) := by
  cases previous with
  | none => exact ⟨after, fun _ member => member, rfl, fun _ => rfl⟩
  | some previous =>
      induction within with
      | nil =>
          exact ⟨entered (some previous) after, fun _ => mem_of_mem_entered, rfl, absurd rfl⟩
      | cons next within ih =>
          rw [List.cons_append]
          by_cases agrees : next.Agrees previous
          · rw [entered_of_agrees agrees, entered_of_agrees agrees]
            exact ih
          · rw [entered_of_differs agrees, entered_of_differs agrees]
            exact ⟨after, fun _ member => member, rfl, fun _ => rfl⟩

variable {keep : Observation α → Bool}

theorem filter_condenseSorted_none {observations : List (Observation α)}
    (none : ∀ observation ∈ observations, keep observation = false) :
    (everyField.condenseSorted observations).filter keep = [] := by
  refine List.filter_eq_nil_iff.mpr fun observation member => ?_
  cases observations with
  | nil => cases member
  | cons first rest =>
      rw [none observation (mem_condenseFrom member)]
      exact Bool.false_ne_true

/-- Observations that are left out do not take the place of one that is kept. -/
theorem filter_condenseFrom_last {last : Observation α} {after : List (Observation α)}
    (kept : keep last = true) (leaves : ∀ observation ∈ after, keep observation = false)
    (apart : ∀ later ∈ after, last.Apart later) :
    (everyField.condenseFrom last after).filter keep = [last] := by
  induction after with
  | nil => exact List.filter_cons_of_pos kept
  | cons next after ih =>
      by_cases agrees : next.Agrees last
      · rw [condenseFrom_of_agrees agrees]
        exact ih (fun observation member => leaves observation (List.mem_cons_of_mem next member))
          fun later member => apart later (List.mem_cons_of_mem next member)
      · have dropped : (everyField.condenseSorted (next :: after)).filter keep = [] :=
          filter_condenseSorted_none leaves
        rw [condenseFrom_of_apart agrees (apart next List.mem_cons_self),
          List.filter_cons_of_pos kept]
        exact congrArg (last :: ·) dropped

/-- What is retained of the observations that are kept does not depend on those after them. -/
theorem filter_condenseFrom_leave {first : Observation α} {within after : List (Observation α)}
    (keeps : ∀ observation ∈ first :: within, keep observation = true)
    (leaves : ∀ observation ∈ after, keep observation = false)
    (apart : ∀ observation ∈ first :: within, ∀ later ∈ after, observation.Apart later) :
    (everyField.condenseFrom first (within ++ after)).filter keep =
      everyField.condenseFrom first within := by
  induction within generalizing first with
  | nil =>
      exact filter_condenseFrom_last (keeps first List.mem_cons_self) leaves
        (apart first List.mem_cons_self)
  | cons next within ih =>
      have rest := @ih next (fun observation member => keeps observation (List.mem_cons_of_mem _ member))
        (fun observation member => apart observation (List.mem_cons_of_mem _ member))
      rw [List.cons_append]
      by_cases agrees : next.Agrees first
      · rw [condenseFrom_of_agrees agrees, condenseFrom_of_agrees agrees]
        have fewer : ∀ observation ∈ first :: within, observation ∈ first :: next :: within := by
          intro observation member
          rcases List.mem_cons.mp member with rfl | later
          · exact List.mem_cons_self
          · exact List.mem_cons_of_mem _ (List.mem_cons_of_mem _ later)
        exact ih (fun observation member => keeps observation (fewer observation member))
          (fun observation member => apart observation (fewer observation member))
      · by_cases same : (first.time == next.time) = true
        · rw [condenseFrom_of_replaced agrees same, condenseFrom_of_replaced agrees same, rest]
        · rw [condenseFrom_of_apart agrees same, condenseFrom_of_apart agrees same,
            List.filter_cons_of_pos (keeps first List.mem_cons_self), rest]

/-- After an observation that is left out, those that repeat it are dropped. -/
theorem filter_condenseFrom_enter {last : Observation α} {rest : List (Observation α)}
    (left : keep last = false) (apart : ∀ observation ∈ rest, last.Apart observation) :
    (everyField.condenseFrom last rest).filter keep =
      (everyField.condenseSorted (entered (some last) rest)).filter keep := by
  have dropped : ¬ keep last = true := Bool.eq_false_iff.mp left
  induction rest with
  | nil => exact List.filter_cons_of_neg dropped
  | cons next rest ih =>
      by_cases agrees : next.Agrees last
      · rw [condenseFrom_of_agrees agrees, entered_of_agrees agrees]
        exact ih fun observation member => apart observation (List.mem_cons_of_mem next member)
      · rw [condenseFrom_of_apart agrees (apart next List.mem_cons_self),
          List.filter_cons_of_neg dropped, entered_of_differs agrees]
        rfl

variable [OrderedScalar α]

/-- Of observations that are left out, those after them depend on the last step alone. -/
theorem filter_condenseFrom_before {first : Observation α} {before : List (Observation α)}
    (comparable : ∀ observation ∈ first :: before, observation.IsComparable)
    (leaves : ∀ observation ∈ first :: before, keep observation = false)
    (rest : List (Observation α)) :
    ∃ last ∈ first :: before, last.Agrees (lastOf first before) ∧
      (everyField.condenseFrom first (before ++ rest)).filter keep =
        (everyField.condenseFrom last rest).filter keep := by
  induction before generalizing first with
  | nil => exact ⟨first, List.mem_cons_self, (comparable first List.mem_cons_self).agrees, rfl⟩
  | cons next before ih =>
      have later := fun observation member =>
        comparable observation (List.mem_cons_of_mem first member)
      have leavesLater := fun observation member =>
        leaves observation (List.mem_cons_of_mem first member)
      rw [List.cons_append, lastOf_cons]
      by_cases agrees : next.Agrees first
      · rw [condenseFrom_of_agrees agrees]
        have fewer : ∀ observation ∈ first :: before, observation ∈ first :: next :: before := by
          intro observation member
          rcases List.mem_cons.mp member with rfl | found
          · exact List.mem_cons_self
          · exact List.mem_cons_of_mem _ (List.mem_cons_of_mem _ found)
        obtain ⟨last, member, same, filtered⟩ := ih
          (fun observation member => comparable observation (fewer observation member))
          (fun observation member => leaves observation (fewer observation member))
        have rested : (lastOf first before).Agrees (lastOf next before) :=
          lastOf_agrees agrees.symm fun observation found =>
            later observation (List.mem_cons_of_mem next found)
        exact ⟨last, fewer last member, same.trans rested, filtered⟩
      · obtain ⟨last, member, same, filtered⟩ := ih later leavesLater
        refine ⟨last, List.mem_cons_of_mem first member, same, filtered ▸ ?_⟩
        by_cases replaced : (first.time == next.time) = true
        · rw [condenseFrom_of_replaced agrees replaced]
        · rw [condenseFrom_of_apart agrees replaced, List.filter_cons_of_neg]
          exact Bool.eq_false_iff.mp (leaves first List.mem_cons_self)

theorem entered_congr {left right : Observation α} (agrees : left.Agrees right)
    (rest : List (Observation α)) : entered (some left) rest = entered (some right) rest := by
  induction rest with
  | nil => rfl
  | cons next rest ih =>
      by_cases same : next.Agrees left
      · rw [entered_of_agrees same, entered_of_agrees (same.trans agrees), ih]
      · rw [entered_of_differs same, entered_of_differs ((differs_congr agrees).mp same)]

/-- What is retained of a stretch of observations. -/
theorem filter_condenseSorted {before within after : List (Observation α)}
    (comparable : ∀ observation ∈ before, observation.IsComparable)
    (leavesBefore : ∀ observation ∈ before, keep observation = false)
    (keeps : ∀ observation ∈ within, keep observation = true)
    (leavesAfter : ∀ observation ∈ after, keep observation = false)
    (apartBefore : ∀ observation ∈ before, ∀ later ∈ within ++ after, observation.Apart later)
    (apartAfter : ∀ observation ∈ within, ∀ later ∈ after, observation.Apart later) :
    (everyField.condenseSorted (before ++ (within ++ after))).filter keep =
      everyField.condenseSorted (entered before.getLast? within) := by
  have rest (previous : Option (Observation α)) :
      (everyField.condenseSorted (entered previous (within ++ after))).filter keep =
        everyField.condenseSorted (entered previous within) := by
    obtain ⟨later, fromAfter, split, whole⟩ := entered_append previous within after
    rw [split]
    have subset : ∀ observation ∈ entered previous within, observation ∈ within :=
      fun _ member => mem_of_mem_entered member
    cases started : entered previous within with
    | nil =>
        exact filter_condenseSorted_none fun observation member =>
          leavesAfter observation (fromAfter observation member)
    | cons first others =>
        rw [started] at subset
        rw [whole (by simp [started])]
        exact filter_condenseFrom_leave
          (fun observation member => keeps observation (subset observation member)) leavesAfter
          fun observation member => apartAfter observation (subset observation member)
  cases before with
  | nil => exact rest none
  | cons first before =>
      obtain ⟨last, member, agrees, filtered⟩ :=
        filter_condenseFrom_before comparable leavesBefore (within ++ after)
      have previous : (first :: before).getLast? = some (lastOf first before) := List.getLast?_cons
      rw [previous, ← entered_congr agrees]
      refine filtered.trans ?_
      rw [filter_condenseFrom_enter (leavesBefore last member) (apartBefore last member)]
      exact rest (some last)

end HostTimeline.Criteria
