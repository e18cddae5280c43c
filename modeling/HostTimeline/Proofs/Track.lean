import HostTimeline.Timeline
import HostTimeline.Proofs.HostMap
import HostTimeline.Proofs.StepFunction
import HostTimeline.Proofs.TimeGrid

/-!
What a host shows at the points of the grid, told from the observations that were reported
for it.
-/

namespace HostTimeline

variable {α : Type}

@[simp]
theorem Observation.moveTo_time (observation : Observation α) (time : α) :
    (observation.moveTo time).time = time :=
  rfl

variable [Scalar α]

@[simp]
theorem Observation.inUse_moveTo (observation : Observation α) (time : α) (resource : Resource) :
    (observation.moveTo time).inUse resource = observation.inUse resource := by
  cases resource <;> rfl

@[simp]
theorem Observation.offered_moveTo (observation : Observation α) (time : α) (resource : Resource) :
    (observation.moveTo time).offered resource = observation.offered resource := by
  cases resource <;> rfl

@[simp]
theorem Observation.vacant_moveTo (state : PowerState) (first second : α) :
    (Observation.vacant first state).moveTo second = Observation.vacant second state :=
  rfl

@[simp]
theorem Observation.offered_vacant (time : α) (state : PowerState) (resource : Resource) :
    (Observation.vacant time state).offered resource = Scalar.zero := by
  cases resource <;> rfl

@[simp]
theorem Observation.inUse_vacant (time : α) (state : PowerState) (resource : Resource) :
    (Observation.vacant time state).inUse resource = Scalar.zero := by
  cases resource <;> rfl

/-- The observations within a span, ascending by time. -/
def Span.observed (span : Span α) (observations : List (Observation α)) :
    List (Observation α) :=
  Observation.sortByTime (observations.filter fun observation => span.contains observation.time)

theorem Span.ends_exists (span : Span α) : ∃ rest, span.ends = span.start :: rest := by
  unfold Span.ends
  split
  · exact ⟨_, rfl⟩
  · exact ⟨_, rfl⟩

theorem Span.clip_of_none (span : Span α) {observations : List (Observation α)}
    (events : span.observed observations = []) :
    span.clip observations = span.ends.map fun time => Observation.vacant time .unknown := by
  unfold Span.observed at events
  unfold Span.clip
  simp only [events]

theorem Span.clip_of_one (span : Span α) {observations : List (Observation α)}
    {only : Observation α} (events : span.observed observations = [only]) :
    span.clip observations = span.ends.map only.moveTo := by
  unfold Span.observed at events
  unfold Span.clip
  simp only [events]

theorem Span.clip_of_two (span : Span α) {observations middle : List (Observation α)}
    {first last : Observation α} (events : span.observed observations = first :: (middle ++ [last])) :
    span.clip observations = first.moveTo span.start :: (middle ++ [last.moveTo span.stop]) := by
  unfold Span.observed at events
  unfold Span.clip
  simp only [events]
  cases middle with
  | nil => rfl
  | cons second rest =>
      have split : second :: rest ++ [last] ≠ [] := by simp
      change first.moveTo span.start :: ((second :: rest ++ [last]).dropLast ++
        [((second :: rest ++ [last]).getLast split).moveTo span.stop]) = _
      rw [List.dropLast_concat, List.getLast_concat]

theorem Span.mem_observed {span : Span α} {observations : List (Observation α)}
    {observation : Observation α} : observation ∈ span.observed observations ↔
      observation ∈ observations ∧ span.contains observation.time = true :=
  mem_stableSort.trans List.mem_filter

/-- Clipping moves observations in time and changes nothing else; where there are none it makes
some that offer and use nothing. -/
theorem Span.exists_of_mem_clip {span : Span α} {observations : List (Observation α)}
    {observation : Observation α} (member : observation ∈ span.clip observations) :
    (∃ time, observation = .vacant time .unknown) ∨
      ∃ reported ∈ span.observed observations, ∃ time, observation = reported.moveTo time := by
  cases events : span.observed observations with
  | nil =>
      rw [span.clip_of_none events] at member
      obtain ⟨time, _, rfl⟩ := List.mem_map.mp member
      exact .inl ⟨time, rfl⟩
  | cons first rest =>
      refine .inr ?_
      rcases List.eq_nil_or_concat rest with rfl | ⟨middle, last, rfl⟩
      · rw [span.clip_of_one events] at member
        obtain ⟨time, _, rfl⟩ := List.mem_map.mp member
        exact ⟨first, List.mem_cons_self, time, rfl⟩
      · rw [List.concat_eq_append] at events ⊢
        rw [span.clip_of_two events] at member
        rcases List.mem_cons.mp member with rfl | later
        · exact ⟨first, List.mem_cons_self, _, rfl⟩
        · rcases List.mem_append.mp later with inner | isLast
          · exact ⟨observation, by simp [inner], observation.time, rfl⟩
          · exact ⟨last, by simp, _, List.mem_singleton.mp isLast⟩

theorem Span.le_of_mem_observed {span : Span α} {observations : List (Observation α)}
    {event : Observation α} (member : event ∈ span.observed observations) :
    span.start ≤ event.time ∧ event.time ≤ span.stop :=
  Span.contains_iff.mp (mem_observed.mp member).2

theorem Span.clip_exists (span : Span α) (observations : List (Observation α)) :
    ∃ first rest, span.clip observations = first :: rest ∧ first.time = span.start := by
  obtain ⟨later, ends⟩ := span.ends_exists
  unfold Span.clip
  simp only [ends]
  split
  · exact ⟨_, _, rfl, rfl⟩
  · exact ⟨_, _, rfl, rfl⟩
  · exact ⟨_, _, rfl, rfl⟩

theorem Timeline.build_eq {window : Window α} {hosts : HostMap (List (Observation α))}
    {timeline : Timeline α} (built : Timeline.build window hosts = .ok timeline) :
    TimeGrid.build window
        (hosts.values.flatMap fun observations => observations.map Observation.time) =
      .ok timeline.grid ∧
    timeline.tracks = hosts.sorted.map fun host => Track.build timeline.grid host.1 host.2 := by
  unfold Timeline.build at built
  obtain ⟨grid, made, built⟩ := bind_ok built
  cases built
  exact ⟨made, rfl⟩

/-- Whatever holds of all that was reported holds of clipped observations, if it does not depend on
time and holds of a host that offers and uses nothing. -/
theorem Timeline.forall_clipped {window : Window α} {hosts : HostMap (List (Observation α))}
    {timeline : Timeline α} {holds : Observation α → Prop}
    (reported : ∀ observations ∈ hosts.values, ∀ observation ∈ observations, holds observation)
    (vacant : ∀ time, holds (.vacant time .unknown))
    (moved : ∀ observation time, holds observation → holds (observation.moveTo time))
    (built : Timeline.build window hosts = .ok timeline) :
    ∀ track ∈ timeline.tracks, ∀ observation ∈ track.observations, holds observation := by
  intro track member observation observed
  rw [(build_eq built).2] at member
  obtain ⟨host, listed, rfl⟩ := List.mem_map.mp member
  rcases Span.exists_of_mem_clip observed with ⟨time, rfl⟩ | ⟨event, known, time, rfl⟩
  · exact vacant time
  · have own : host.2 ∈ hosts.values :=
      List.mem_map_of_mem (hosts.perm_sorted.mem_iff.mp listed)
    exact moved event time (reported host.2 own event (Span.mem_observed.mp known).1)

variable [OrderedScalar α]

open OrderedScalar

namespace Span

theorem pairwise_observed (span : Span α) (observations : List (Observation α)) :
    (span.observed observations).Pairwise fun left right => left.time ≤ right.time := by
  refine pairwise_sortOn ?_
  intro event member
  exact (le_self_of_le (contains_iff.mp (List.mem_filter.mp member).2).1).2

end Span

theorem Timeline.isFinite_times {hosts : HostMap (List (Observation Float))}
    (timesFinite : ∀ observations ∈ hosts.values, ∀ observation ∈ observations,
      observation.time.isFinite = true) :
    ∀ time ∈ hosts.values.flatMap fun observations => observations.map Observation.time,
      time.isFinite = true := by
  intro time member
  obtain ⟨observations, hostMember, timeMember⟩ := List.mem_flatMap.mp member
  obtain ⟨observation, observed, rfl⟩ := List.mem_map.mp timeMember
  exact timesFinite observations hostMember observation observed

theorem Timeline.isSpanned_build {window : Window Float}
    {hosts : HostMap (List (Observation Float))} {timeline : Timeline Float}
    (windowFinite : window.IsFinite)
    (timesFinite : ∀ observations ∈ hosts.values, ∀ observation ∈ observations,
      observation.time.isFinite = true)
    (built : Timeline.build window hosts = .ok timeline) :
    timeline.grid.IsSpanned
      (hosts.values.flatMap fun observations => observations.map Observation.time) :=
  TimeGrid.isSpanned_of_comparable windowFinite.isComparable
    (fun time member => Binary64.le_self_of_isFinite (isFinite_times timesFinite time member))
    (build_eq built).1

def Timeline.twoHosts : HostMap (List (Observation Float)) :=
  HostMap.ofList [
    ("node1", [
      { time := 3.0, state := .idle, slots := 4, slotsUsed := 0, memory := 8.0, memoryUsed := 0.0 },
      { time := 1.0, state := .used, slots := 4, slotsUsed := 2, memory := 8.0, memoryUsed := 2.0 }]),
    ("node2", [
      { time := 2.0, state := .off, slots := 4, slotsUsed := 0, memory := 8.0, memoryUsed := 0.0 }])]

end HostTimeline
