import HostTimeline.Proofs.Number.Order

/-!
Removal of repeated values from an ascending list.  What remains ascends strictly
(`pairwise_lt_eraseReps`), consists of values of the list (`eraseReps_sublist`) and has one
that is equal to each of them (`exists_beq_eraseReps`).
-/

namespace HostTimeline

section Repetitions

variable {α : Type} [BEq α]

theorem eraseReps_loop (value : α) (rest accepted : List α) :
    List.eraseRepsBy.loop (· == ·) value rest accepted =
      accepted.reverse ++ (value :: rest).eraseReps := by
  unfold List.eraseReps List.eraseRepsBy
  induction rest generalizing value accepted with
  | nil => simp [List.eraseRepsBy.loop]
  | cons next rest ih =>
      simp only [List.eraseRepsBy.loop]
      cases value == next with
      | true => exact ih value accepted
      | false =>
          simp only
          rw [ih next (value :: accepted), ih next [value]]
          simp

theorem eraseReps_cons_cons (first second : α) (rest : List α) :
    (first :: second :: rest).eraseReps =
      if first == second then (first :: rest).eraseReps
      else first :: (second :: rest).eraseReps := by
  change List.eraseRepsBy.loop (· == ·) first (second :: rest) [] = _
  simp only [List.eraseRepsBy.loop]
  cases first == second <;> simp only [eraseReps_loop] <;> rfl

/-- The first value always remains. -/
theorem eraseReps_cons_exists (first : α) (rest : List α) :
    ∃ others, (first :: rest).eraseReps = first :: others := by
  induction rest with
  | nil => exact ⟨[], rfl⟩
  | cons second rest ih =>
      rw [eraseReps_cons_cons]
      split
      · exact ih
      · exact ⟨_, rfl⟩

theorem eraseReps_sublist (values : List α) : values.eraseReps.Sublist values := by
  cases values with
  | nil => exact .slnil
  | cons first rest =>
      induction rest generalizing first with
      | nil => exact .refl _
      | cons second rest ih =>
          rw [eraseReps_cons_cons]
          split
          · exact (ih first).trans (.cons_cons first (.cons second (.refl rest)))
          · exact .cons_cons first (ih second)

end Repetitions

variable {α : Type} [Scalar α] [OrderedScalar α]

open OrderedScalar

theorem pairwise_lt_eraseReps {values : List α} (ascending : values.Pairwise (· ≤ ·)) :
    values.eraseReps.Pairwise (· < ·) := by
  cases values with
  | nil => exact .nil
  | cons first rest =>
      induction rest generalizing first with
      | nil => exact List.pairwise_singleton _ _
      | cons second rest ih =>
          obtain ⟨below, ascendingRest⟩ := List.pairwise_cons.mp ascending
          rw [eraseReps_cons_cons]
          split
          next same =>
            exact ih first (ascending.sublist (.cons_cons first (.cons second (.refl rest))))
          next differs =>
            have less : first < second :=
              (lt_or_beq_of_le (below second List.mem_cons_self)).resolve_right differs
            refine List.pairwise_cons.mpr ⟨?_, ih second ascendingRest⟩
            intro value kept
            rcases List.mem_cons.mp ((eraseReps_sublist _).subset kept) with same | later
            · exact same ▸ less
            · exact lt_of_lt_of_le less ((List.pairwise_cons.mp ascendingRest).1 value later)

theorem exists_beq_eraseReps {values : List α} (comparable : ∀ value ∈ values, value ≤ value)
    {value : α} (member : value ∈ values) : ∃ kept ∈ values.eraseReps, (kept == value) = true := by
  cases values with
  | nil => cases member
  | cons first rest =>
      induction rest generalizing first with
      | nil =>
          have self := comparable value member
          exact ⟨value, member, beq_iff_le_le.mpr ⟨self, self⟩⟩
      | cons second rest ih =>
          rw [eraseReps_cons_cons]
          split
          next same =>
            rcases List.mem_cons.mp member with isFirst | later
            · exact ih first (fun other found => comparable other (by grind)) (by simp [isFirst])
            · rcases List.mem_cons.mp later with isSecond | later
              · obtain ⟨others, found⟩ := eraseReps_cons_exists first rest
                exact ⟨first, by simp [found], isSecond ▸ same⟩
              · exact ih first (fun other found => comparable other (by grind)) (by simp [later])
          next differs =>
            rcases List.mem_cons.mp member with isFirst | later
            · have self := comparable value member
              exact ⟨value, by simp [isFirst], beq_iff_le_le.mpr ⟨self, self⟩⟩
            · obtain ⟨kept, found, equal⟩ :=
                ih second (fun other found => comparable other (List.mem_cons_of_mem _ found)) later
              exact ⟨kept, List.mem_cons_of_mem _ found, equal⟩

end HostTimeline
