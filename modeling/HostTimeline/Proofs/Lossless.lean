import HostTimeline.Proofs.Condense
import HostTimeline.Proofs.HostMap
import HostTimeline.Proofs.Number.WholeNumber

/-!
What condensing keeps.  Read as a step function of the selected fields, what is retained of a
host tells at every time what was reported (`standing?_condenseFrom`); its times ascend strictly
(`increasing_condenseFrom`), also where rounding made several of them the same.
-/

namespace HostTimeline

open OrderedScalar

variable {α : Type} [Scalar α]

/-- The last observation at or before a time. -/
def Observation.standing? (observations : List (Observation α)) (time : α) :
    Option (Observation α) :=
  (observations.filter fun observation => decide (observation.time ≤ time)).getLast?

namespace Observation

variable {first : Observation α} {time : α}

theorem standing?_cons_of_le (reached : first.time ≤ time) (rest : List (Observation α)) :
    standing? (first :: rest) time = some ((standing? rest time).getD first) := by
  rw [standing?, List.filter_cons_of_pos (by simpa using reached), List.getLast?_cons]
  rfl

theorem standing?_cons_of_not_le (beyond : ¬ first.time ≤ time) (rest : List (Observation α)) :
    standing? (first :: rest) time = standing? rest time := by
  rw [standing?, List.filter_cons_of_neg (by simpa using beyond)]
  rfl

theorem standing?_of_beyond {observations : List (Observation α)}
    (beyond : ∀ observation ∈ observations, ¬ observation.time ≤ time) :
    standing? observations time = none := by
  have none : (observations.filter fun observation => decide (observation.time ≤ time)) = [] :=
    List.filter_eq_nil_iff.mpr fun observation member => by simpa using beyond observation member
  rw [standing?, none]
  rfl

theorem beyond_of_ascending [OrderedScalar α] {rest : List (Observation α)}
    (ascending : (first :: rest).Pairwise fun left right => left.time ≤ right.time)
    (beyond : ¬ first.time ≤ time) : ∀ observation ∈ first :: rest, ¬ observation.time ≤ time := by
  intro observation member
  rcases List.mem_cons.mp member with rfl | later
  · exact beyond
  · exact fun reached =>
      beyond (le_trans ((List.pairwise_cons.mp ascending).1 observation later) reached)

end Observation

namespace Criteria

open Observation

/-- Alike on every selected field. -/
structure Alike (criteria : Criteria) (left right : Observation α) : Prop where
  state : criteria.state = true → left.state = right.state
  memoryUsed : criteria.memoryUsed = true → Scalar.Alike left.memoryUsed right.memoryUsed
  memory : criteria.memory = true → Scalar.Alike left.memory right.memory
  slotsUsed : criteria.slotsUsed = true → left.slotsUsed = right.slotsUsed
  slots : criteria.slots = true → left.slots = right.slots

theorem Alike.refl (criteria : Criteria) (observation : Observation α) :
    criteria.Alike observation observation where
  state _ := rfl
  memoryUsed _ := .inl rfl
  memory _ := .inl rfl
  slotsUsed _ := rfl
  slots _ := rfl

theorem alike_of_agree {criteria : Criteria} {left right : Observation α}
    (agrees : criteria.agree left right = true) : criteria.Alike left right := by
  simp only [agree, Bool.and_eq_true, Bool.or_eq_true, Bool.not_eq_true', decide_eq_true_eq]
    at agrees
  obtain ⟨⟨⟨⟨state, memoryUsed⟩, memory⟩, slotsUsed⟩, slots⟩ := agrees
  constructor
  · exact fun selected => state.resolve_left (by simp [selected])
  · exact fun selected => .inr (memoryUsed.resolve_left (by simp [selected]))
  · exact fun selected => .inr (memory.resolve_left (by simp [selected]))
  · exact fun selected => slotsUsed.resolve_left (by simp [selected])
  · exact fun selected => slots.resolve_left (by simp [selected])

/-- What is retained of one host against what was reported for it, both ascending by time. -/
structure IsLossless (criteria : Criteria) (reported retained : List (Observation α)) : Prop where
  sublist : retained.Sublist reported
  increasing : retained.Pairwise fun left right => left.time < right.time
  empty : retained = [] → reported = []
  standing : ∀ time, Option.Rel criteria.Alike (standing? reported time) (standing? retained time)

theorem length_condense_add_dropped (criteria : Criteria) (observations : List (Observation α)) :
    (criteria.condense observations).length + criteria.dropped observations =
      observations.length := by
  have fewer := (criteria.condenseSorted_sublist
    ((sortByTime observations).map criteria.place)).length_le
  rw [List.length_map, sortByTime, Scalar.sortOn, length_stableSort] at fewer
  exact Nat.add_sub_of_le fewer

variable [OrderedScalar α] {criteria : Criteria} {kept : Observation α}
  {rest : List (Observation α)}

theorem increasing_condenseFrom
    (ascending : (kept :: rest).Pairwise fun left right => left.time ≤ right.time) :
    (criteria.condenseFrom kept rest).Pairwise fun left right => left.time < right.time := by
  induction rest generalizing kept with
  | nil => exact List.pairwise_singleton _ _
  | cons next rest ih =>
      obtain ⟨below, ascendingRest⟩ := List.pairwise_cons.mp ascending
      unfold condenseFrom
      split
      · exact ih (ascending.sublist ((List.sublist_cons_self next rest).cons_cons kept))
      · split
        · exact ih ascendingRest
        next apart =>
          have less : kept.time < next.time :=
            (lt_or_beq_of_le (below next List.mem_cons_self)).resolve_right apart
          refine List.pairwise_cons.mpr ⟨fun later member => ?_, ih ascendingRest⟩
          rcases List.mem_cons.mp (mem_condenseFrom member) with rfl | found
          · exact less
          · exact lt_of_lt_of_le less ((List.pairwise_cons.mp ascendingRest).1 later found)

/-- From the retained observation on, the last one reported is alike to the last one retained.
`current` is the last one that was reported so far: `kept` itself, or one dropped after it. -/
theorem standing?_condenseFrom {current : Observation α} {time : α}
    (ascending : (kept :: rest).Pairwise fun left right => left.time ≤ right.time)
    (reached : kept.time ≤ time) (known : criteria.Alike current kept) :
    ∃ retained, standing? (criteria.condenseFrom kept rest) time = some retained ∧
      criteria.Alike ((standing? rest time).getD current) retained := by
  induction rest generalizing kept current with
  | nil => exact ⟨kept, standing?_cons_of_le reached [], known⟩
  | cons next rest ih =>
      have ascendingRest := (List.pairwise_cons.mp ascending).2
      have skipping := ascending.sublist ((List.sublist_cons_self next rest).cons_cons kept)
      by_cases nextReached : next.time ≤ time
      · rw [standing?_cons_of_le nextReached, Option.getD_some]
        unfold condenseFrom
        split
        next agrees => exact ih skipping reached (alike_of_agree agrees)
        · -- Both lists go on with `next`, which takes the place of `kept` or follows it.
          split
          · exact ih ascendingRest nextReached (.refl criteria next)
          · obtain ⟨retained, found, alike⟩ :=
              ih ascendingRest nextReached (.refl criteria next)
            rw [standing?_cons_of_le reached, found]
            exact ⟨retained, rfl, alike⟩
      · -- Nothing from `next` on counts at this time, whatever is made of it.
        rw [standing?_cons_of_not_le nextReached]
        unfold condenseFrom
        split
        · exact ih skipping reached known
        · split
          next same =>
            exact absurd (le_trans (le_of_beq (beq_symm same)) reached) nextReached
          · have beyond := beyond_of_ascending ascendingRest nextReached
            rw [standing?_cons_of_le reached,
              standing?_of_beyond fun later member => beyond later (mem_condenseFrom member),
              standing?_of_beyond fun later member => beyond later (List.mem_cons_of_mem next member)]
            exact ⟨kept, rfl, known⟩

theorem isLossless_condenseSorted (criteria : Criteria) {observations : List (Observation α)}
    (ascending : observations.Pairwise fun left right => left.time ≤ right.time) :
    criteria.IsLossless observations (criteria.condenseSorted observations) := by
  cases observations with
  | nil =>
      exact
        { sublist := .slnil
          increasing := .nil
          empty := fun _ => rfl
          standing := fun _ => .none }
  | cons first rest =>
      refine
        { sublist := criteria.condenseSorted_sublist (first :: rest)
          increasing := increasing_condenseFrom ascending
          empty := fun none => absurd none (criteria.condenseFrom_ne_nil first rest)
          standing := fun time => ?_ }
      by_cases reached : first.time ≤ time
      · obtain ⟨retained, found, alike⟩ :=
          standing?_condenseFrom ascending reached (.refl criteria first)
        rw [condenseSorted, found, standing?_cons_of_le reached]
        exact .some alike
      · have beyond := beyond_of_ascending ascending reached
        rw [condenseSorted, standing?_of_beyond beyond,
          standing?_of_beyond fun later member => beyond later (mem_condenseFrom member)]
        exact .none

theorem ascends_place (criteria : Criteria) {observations : List (Observation Float)}
    (timesFinite : ∀ observation ∈ observations, observation.time.isFinite = true) :
    ((sortByTime observations).map criteria.place).Pairwise fun left right =>
      left.time ≤ right.time := by
  have finite {observation : Observation Float} (member : observation ∈ sortByTime observations) :
      observation.time.isFinite = true := timesFinite observation (mem_stableSort.mp member)
  refine List.pairwise_map.mpr ((pairwise_sortOn fun observation member =>
    Binary64.le_self_of_isFinite (timesFinite observation member)).imp_of_mem ?_)
  intro left right leftMember rightMember le
  unfold place
  split
  · exact Binary64.round_le (finite leftMember) (finite rightMember) le
  · exact le

theorem isLossless_condense (criteria : Criteria) {observations : List (Observation Float)}
    (timesFinite : ∀ observation ∈ observations, observation.time.isFinite = true) :
    criteria.IsLossless ((sortByTime observations).map criteria.place)
      (criteria.condense observations) :=
  criteria.isLossless_condenseSorted (criteria.ascends_place timesFinite)

end Criteria

open Criteria Observation

theorem sum_lengths_condense (criteria : Criteria) (values : List (List (Observation α))) :
    ((values.map criteria.condense).map List.length).sum + (values.map criteria.dropped).sum =
      (values.map List.length).sum := by
  induction values with
  | nil => rfl
  | cons observations values ih =>
      have whole := criteria.length_condense_add_dropped observations
      simp only [List.map_cons, List.sum_cons]
      omega

theorem condenseHosts_isLossless (criteria : Criteria) (hosts : HostMap (List (Observation Float)))
    (timesFinite : ∀ observations ∈ hosts.values, ∀ observation ∈ observations,
      observation.time.isFinite = true) :
    (∀ name, Option.Rel (fun retained observations =>
        criteria.IsLossless ((sortByTime observations).map criteria.place) retained)
      ((condenseHosts criteria hosts).1.find? name) (hosts.find? name)) ∧
    ((condenseHosts criteria hosts).1.values.map List.length).sum +
        (condenseHosts criteria hosts).2 =
      (hosts.values.map List.length).sum := by
  constructor
  · intro name
    change Option.Rel _ ((hosts.map fun _ => criteria.condense).find? name) _
    rw [HostMap.find?_map]
    cases found : hosts.find? name with
    | none => exact .none
    | some observations =>
        exact .some (criteria.isLossless_condense
          (timesFinite observations (HostMap.mem_values_of_find? found)))
  · have retained : (condenseHosts criteria hosts).1.values =
        hosts.values.map criteria.condense := hosts.values_map criteria.condense
    have count : (condenseHosts criteria hosts).2 = (hosts.values.map criteria.dropped).sum :=
      List.sum_eq_foldl.symm
    rw [retained, count]
    exact sum_lengths_condense criteria hosts.values

/-- The state of a host in whole seconds. -/
def Criteria.stateBySecond : Criteria :=
  { state := true, wholeSeconds := true }

/-- Three reports round to one second, and the one after it repeats the last of them. -/
def HostMap.crowded : HostMap (List (Observation Float)) :=
  HostMap.ofList [
    ("node1", [
      { time := 2.0, state := .used, slots := 4, slotsUsed := 2, memory := 8.0, memoryUsed := 2.0 },
      { time := 0.5, state := .idle, slots := 4, slotsUsed := 0, memory := 8.0, memoryUsed := 0.0 },
      { time := 1.4, state := .used, slots := 4, slotsUsed := 1, memory := 8.0, memoryUsed := 1.0 },
      { time := 1.2, state := .off, slots := 4, slotsUsed := 0, memory := 8.0, memoryUsed := 0.0 }]),
    ("node2", [])]

theorem condenseHosts_isLossless_crowded :
    (condenseHosts stateBySecond HostMap.crowded).2 = 3 ∧
      ∃ observations retained, HostMap.crowded.find? "node1" = some observations ∧
        (condenseHosts stateBySecond HostMap.crowded).1.find? "node1" = some retained ∧
        retained.map Observation.time = [1.0] ∧
        stateBySecond.IsLossless ((sortByTime observations).map stateBySecond.place) retained := by
  obtain ⟨lossless, _⟩ := condenseHosts_isLossless stateBySecond HostMap.crowded (by decide +kernel)
  have here := lossless "node1"
  have reported : HostMap.crowded.find? "node1" = some _ := rfl
  have times : ((condenseHosts stateBySecond HostMap.crowded).1.find? "node1").map
      (List.map Observation.time) = some [1.0] := by decide +kernel
  obtain ⟨retained, kept, retainedTimes⟩ := Option.map_eq_some_iff.mp times
  rw [reported, kept] at here
  cases here with
  | some same => exact ⟨by decide +kernel, _, retained, reported, kept, retainedTimes, same⟩

end HostTimeline
