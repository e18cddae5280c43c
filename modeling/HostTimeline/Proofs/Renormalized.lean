import HostTimeline.Proofs.Extent
import HostTimeline.Proofs.Number.SignedZero
import HostTimeline.Proofs.Spanning

/-!
Building a timeline of what a timeline shows.  Clipped observations reach from the start of
their span to its stop, so asking for that span finds it again, and clipping them once more
changes nothing (`Span.clip_clip`).  All figures are taken from the clipped observations, and
stay the same (`Timeline.SameFigures`).
-/

namespace HostTimeline

open OrderedScalar

variable {α : Type}

theorem Observation.moveTo_of_time {observation : Observation α} {time : α}
    (timed : observation.time = time) : observation.moveTo time = observation := by
  rw [← timed]
  rfl

variable [Scalar α]

namespace Span

/-- The times that clipped observations can have. -/
def clippedTimes (span : Span α) (observations : List (Observation α)) : List α :=
  span.start :: span.stop :: observations.map Observation.time

/-- Whether clipped observations at times that are equal by value are at the same time. -/
def Distinguishes (span : Span α) (observations : List (Observation α)) : Prop :=
  IsUnambiguous (span.clippedTimes observations)

variable {span : Span α} {observations : List (Observation α)}

theorem time_mem_of_mem_clip {observation : Observation α}
    (member : observation ∈ span.clip observations) :
    observation.time ∈ span.clippedTimes observations := by
  rcases mem_clip member with atStart | atStop | observed
  · rw [atStart]
    exact List.mem_cons_self
  · rw [atStop]
    exact List.mem_cons_of_mem _ List.mem_cons_self
  · exact List.mem_cons_of_mem _ (List.mem_cons_of_mem _ (List.mem_map_of_mem
      (List.mem_filter.mp (mem_stableSort.mp observed)).1))

variable [OrderedScalar α]

/-- Clipped observations are all within the span and in the order of their times. -/
theorem observed_clip (ordered : span.start ≤ span.stop)
    (distinguishes : span.Distinguishes observations) :
    span.observed (span.clip observations) = span.clip observations := by
  have within : (span.clip observations).filter (fun observation =>
      span.contains observation.time) = span.clip observations :=
    List.filter_eq_self.mpr fun _ member => contains_iff.mpr (within_clip ordered member)
  rw [observed, within]
  refine stableSort_eq_self ((clip_ascends ordered observations).imp_of_mem ?_)
  intro left right leftMember rightMember le
  exact precedes_of_le le (distinguishes _ (time_mem_of_mem_clip leftMember) _
    (time_mem_of_mem_clip rightMember))

theorem clip_clip (ordered : span.start ≤ span.stop)
    (distinguishes : span.Distinguishes observations) :
    span.clip (span.clip observations) = span.clip observations := by
  have observed := observed_clip ordered distinguishes
  rcases span.clip_cases observations with
    ⟨place, timed, clipped⟩ | ⟨first, middle, last, _, clipped⟩
  · rw [clipped, map_ends] at observed ⊢
    -- repeated at both ends, one observation counts as two
    by_cases less : span.start < span.stop
    · rw [if_pos less] at observed ⊢
      rw [span.clip_of_two (show _ = _ :: ([] ++ [_]) from observed),
        Observation.moveTo_of_time (timed _), Observation.moveTo_of_time (timed _)]
      rfl
    · rw [if_neg less] at observed ⊢
      rw [span.clip_of_one observed, map_ends, if_neg less, Observation.moveTo_of_time (timed _)]
  · rw [clipped] at observed ⊢
    rw [span.clip_of_two observed]
    rfl

theorem isExtent_clip (ordered : span.start ≤ span.stop)
    (distinguishes : span.Distinguishes observations) :
    span.IsExtent ((span.clip observations).map Observation.time) := by
  have startMember : span.start ∈ span.clippedTimes observations := List.mem_cons_self
  have stopMember : span.stop ∈ span.clippedTimes observations :=
    List.mem_cons_of_mem _ List.mem_cons_self
  constructor
  · obtain ⟨first, rest, clipped, atStart⟩ := span.clip_exists observations
    rw [clipped, List.map_cons, atStart]
    exact List.mem_cons_self
  · obtain ⟨last, found, atStop⟩ := getLast?_clip ordered observations
    have member := List.mem_of_getLast? found
    have same := distinguishes _ (time_mem_of_mem_clip member) _ stopMember atStop
    exact same ▸ List.mem_map_of_mem member
  · intro time member
    obtain ⟨observation, found, rfl⟩ := List.mem_map.mp member
    have timeMember := time_mem_of_mem_clip found
    obtain ⟨low, high⟩ := within_clip ordered found
    exact ⟨precedes_of_le low (distinguishes _ startMember _ timeMember),
      precedes_of_le high (distinguishes _ timeMember _ stopMember)⟩

end Span

namespace Timeline

/-- The observations that the hosts were left with. -/
def clipped (timeline : Timeline α) : List (String × List (Observation α)) :=
  timeline.tracks.map fun track => (track.name, track.observations)

/-- One span with the same observations of every host, and the figures that are taken from these. -/
structure SameFigures (left right : Timeline α) : Prop where
  span : left.grid.span = right.grid.span
  clipped : left.clipped = right.clipped
  capacity : ∀ resource, left.capacity resource = right.capacity resource
  occupancies : left.occupancies = right.occupancies
  loads : left.loads = right.loads

variable {left right timeline : Timeline α} {window : Window α}
  {hosts again : HostMap (List (Observation α))}

theorem loads_eq_mapM (timeline : Timeline α) : timeline.loads =
    timeline.clipped.mapM fun host => do
      let load ← hostLoad (timeline.capacity .memory).max (timeline.capacity .slots).max
        { name := host.1, observations := host.2, onGrid := [] }
      return (host.1, load) := by
  rw [clipped, List.mapM_map]
  rfl

theorem sameFigures (span : left.grid.span = right.grid.span) (same : left.clipped = right.clipped) :
    left.SameFigures right := by
  have figures {β : Type} (figure : String × List (Observation α) → β) :
      (left.tracks.map fun track => figure (track.name, track.observations)) =
        right.tracks.map fun track => figure (track.name, track.observations) := by
    have mapped := congrArg (List.map figure) same
    rwa [clipped, clipped, List.map_map, List.map_map] at mapped
  have capacity (resource : Resource) : left.capacity resource = right.capacity resource := by
    have hosts := figures fun host => (host.1, Scalar.maxWithZero
      (host.2.map fun observation => observation.offered resource))
    exact congrArg (fun hosts : List (String × α) => ({
      hosts, max := Scalar.maxWithZero (hosts.map Prod.snd)
      total := Scalar.sum (hosts.map Prod.snd) } : Capacity α)) hosts
  refine ⟨span, same, capacity, ?_, ?_⟩
  · exact figures fun host => (host.1,
      Occupancy.ofObservations (fun state _ => state.isAvailable) host.2)
  · rw [loads_eq_mapM, loads_eq_mapM, capacity, capacity, same]

theorem clipped_eq_sorted (built : Timeline.build window hosts = .ok timeline) :
    timeline.clipped =
      (hosts.map fun _ observations => timeline.grid.span.clip observations).sorted := by
  rw [clipped, (build_eq built).2, List.map_map, HostMap.sorted_map]
  rfl

theorem nodup_names_clipped (built : Timeline.build window hosts = .ok timeline) :
    (timeline.clipped.map Prod.fst).Nodup := by
  rw [clipped_eq_sorted built]
  exact (HostMap.perm_sorted_names _).nodup_iff.mpr (HostMap.distinct _)

theorem sorted_eq_clipped (built : Timeline.build window hosts = .ok timeline)
    (entries : again.entries.Perm timeline.clipped) : again.sorted = timeline.clipped := by
  rw [clipped_eq_sorted built] at entries ⊢
  exact HostMap.sorted_eq_of_perm (entries.trans (HostMap.perm_sorted _))

theorem build_of_resolved {span : Span α} (resolved : window.resolve (hosts.values.flatMap
      fun observations => observations.map Observation.time) = .ok span) :
    ∃ timeline, Timeline.build window hosts = .ok timeline ∧ timeline.grid.span = span ∧
      timeline.clipped = hosts.sorted.map fun host => (host.1, span.clip host.2) := by
  unfold Timeline.build TimeGrid.build
  simp only [resolved]
  refine ⟨_, rfl, rfl, ?_⟩
  rw [clipped, List.map_map]
  rfl

theorem exists_of_mem_clipped (built : Timeline.build window hosts = .ok timeline)
    {host : String × List (Observation α)} (member : host ∈ timeline.clipped) :
    ∃ observations ∈ hosts.values, host.2 = timeline.grid.span.clip observations := by
  rw [clipped_eq_sorted built, HostMap.sorted_map] at member
  obtain ⟨entry, found, rfl⟩ := List.mem_map.mp member
  exact ⟨entry.2, List.mem_map_of_mem (hosts.perm_sorted.mem_iff.mp found), rfl⟩

theorem clipped_eq_nil (built : Timeline.build window hosts = .ok timeline) :
    timeline.clipped = [] ↔ hosts.values = [] := by
  rw [clipped_eq_sorted built, HostMap.sorted_map, List.map_eq_nil_iff, HostMap.values,
    List.map_eq_nil_iff]
  have perm := hosts.perm_sorted
  constructor
  · intro none
    rwa [none, List.nil_perm] at perm
  · intro none
    rwa [none, List.perm_nil] at perm

variable [LinearScalar α]

theorem resolve_again (built : Timeline.build window hosts = .ok timeline)
    (ordered : timeline.grid.span.start ≤ timeline.grid.span.stop)
    (distinguishes : ∀ observations ∈ hosts.values,
      timeline.grid.span.Distinguishes observations)
    (entries : again.entries.Perm timeline.clipped) :
    timeline.grid.span.window.resolve (again.values.flatMap
      fun observations => observations.map Observation.time) = .ok timeline.grid.span := by
  have values : again.values.Perm (timeline.clipped.map Prod.snd) := entries.map Prod.snd
  -- Without a host no end of the span was observed, and both were asked for already.
  by_cases unhosted : hosts.values = []
  · rw [(clipped_eq_nil built).mpr unhosted] at values
    have resolved := (TimeGrid.build_eq (build_eq built).1).1
    rw [unhosted] at resolved
    rw [List.perm_nil.mp values]
    exact Window.resolve_window_nil resolved
  · refine Window.resolve_window (Span.IsExtent.flatMap ?_ fun observations member => ?_) ordered
    · intro none
      rw [none, List.nil_perm, List.map_eq_nil_iff] at values
      exact unhosted ((clipped_eq_nil built).mp values)
    · obtain ⟨host, found, rfl⟩ := List.mem_map.mp (values.mem_iff.mp member)
      obtain ⟨observations, reported, shown⟩ := exists_of_mem_clipped built found
      rw [shown]
      exact Span.isExtent_clip ordered (distinguishes observations reported)

theorem exists_again (built : Timeline.build window hosts = .ok timeline)
    (ordered : timeline.grid.span.start ≤ timeline.grid.span.stop)
    (distinguishes : ∀ observations ∈ hosts.values,
      timeline.grid.span.Distinguishes observations)
    (entries : again.entries.Perm timeline.clipped) :
    ∃ other, Timeline.build timeline.grid.span.window again = .ok other ∧
      other.SameFigures timeline := by
  obtain ⟨other, made, span, clipped⟩ :=
    build_of_resolved (resolve_again built ordered distinguishes entries)
  refine ⟨other, made, sameFigures span ?_⟩
  rw [clipped, sorted_eq_clipped built entries]
  refine (List.map_congr_left fun host member => ?_).trans (List.map_id _)
  obtain ⟨observations, found, shown⟩ := exists_of_mem_clipped built member
  rw [shown, Span.clip_clip ordered (distinguishes observations found), ← shown]
  rfl

theorem isUnambiguous_of_signed {times : List Float} (signed : ∀ time ∈ times, time ≠ -0) :
    IsUnambiguous times :=
  fun left leftMember right rightMember =>
    Binary64.eq_of_ne_negative_zero (signed left leftMember) (signed right rightMember)

theorem build_again {window : Window Float} {hosts again : HostMap (List (Observation Float))}
    {timeline : Timeline Float} (windowFinite : window.IsFinite)
    (earliestSigned : ∀ time ∈ window.earliest, time ≠ -0)
    (latestSigned : ∀ time ∈ window.latest, time ≠ -0)
    (timesFinite : ∀ observations ∈ hosts.values, ∀ observation ∈ observations,
      observation.time.isFinite = true)
    (timesSigned : ∀ observations ∈ hosts.values, ∀ observation ∈ observations,
      observation.time ≠ -0)
    (built : Timeline.build window hosts = .ok timeline)
    (entries : again.entries.Perm timeline.clipped) :
    ∃ other, Timeline.build timeline.grid.span.window again = .ok other ∧
      other.SameFigures timeline := by
  have signed : ∀ time ∈ hosts.values.flatMap fun observations =>
      observations.map Observation.time, time ≠ -0 := by
    intro time found
    obtain ⟨observations, hostMember, timeMember⟩ := List.mem_flatMap.mp found
    obtain ⟨observation, observed, rfl⟩ := List.mem_map.mp timeMember
    exact timesSigned observations hostMember observation observed
  obtain ⟨start, stop, _⟩ := Window.resolve_ends (TimeGrid.build_eq (build_eq built).1).1
  refine exists_again built (isSpanned_build windowFinite timesFinite built).start_le_stop
    (fun observations member => isUnambiguous_of_signed fun time found => ?_) entries
  rcases List.mem_cons.mp found with rfl | found
  · exact start.elim (signed _) (earliestSigned _)
  · rcases List.mem_cons.mp found with rfl | found
    · exact stop.elim (signed _) (latestSigned _)
    · obtain ⟨observation, observed, rfl⟩ := List.mem_map.mp found
      exact timesSigned observations member observation observed

/-- Hosts with several observations, one and none at all, each left with two at the ends of the
span, and given in another order. -/
theorem build_again_seldom_seen : ∃ timeline again other,
    Timeline.build { latest := some 5.0 } seldomSeen = .ok timeline ∧
      timeline.clipped.map (fun host => (host.1, host.2.map Observation.time)) =
        [("node1", [1.0, 5.0]), ("node2", [1.0, 5.0]), ("node3", [1.0, 5.0])] ∧
      again.entries = timeline.clipped.reverse ∧
      Timeline.build timeline.grid.span.window again = .ok other ∧
      other.SameFigures timeline := by
  have times : (Timeline.build { latest := some 5.0 } seldomSeen).toOption.map (fun timeline =>
      timeline.clipped.map fun host => (host.1, host.2.map Observation.time)) =
        some [("node1", [1.0, 5.0]), ("node2", [1.0, 5.0]), ("node3", [1.0, 5.0])] := by
    decide +kernel
  obtain ⟨timeline, found, shown⟩ := Option.map_eq_some_iff.mp times
  have built := eq_ok_of_toOption found
  have windowFinite : Window.IsFinite { latest := some 5.0 } := ⟨by simp, by decide +kernel⟩
  have reversed := timeline.clipped.reverse_perm
  have distinct : (timeline.clipped.reverse.map Prod.fst).Nodup :=
    (reversed.map Prod.fst).nodup_iff.mpr (nodup_names_clipped built)
  obtain ⟨other, made, same⟩ := @build_again _ _ { entries := timeline.clipped.reverse, distinct } _
    windowFinite (by simp) (by decide +kernel) (by decide +kernel) (by decide +kernel) built reversed
  exact ⟨timeline, _, other, built, shown, rfl, made, same⟩

end Timeline

end HostTimeline
