import HostTimeline.Proofs.Number.Addition
import HostTimeline.Proofs.Overload
import HostTimeline.Proofs.Timeline

/-!
Nothing that is drawn of a resource is more than the hosts offer of it at most
(`Timeline.isWithinCapacity_build`).  Every value of a series is zero or that of a clipped
observation of its host (`Timeline.exists_of_mem_drawn`), wherever the points of the series lie.
-/

namespace HostTimeline

open OrderedScalar

section

variable {α : Type} [Scalar α]

/-- A host repeats its clipped observations on the grid; before the first one it is off. -/
theorem Track.exists_of_mem_onGrid {grid : TimeGrid α} {name : String}
    {observations : List (Observation α)} {observation : Observation α}
    (member : observation ∈ (Track.build grid name observations).onGrid) :
    (∃ time, observation = .vacant time .off) ∨
      ∃ clipped ∈ grid.span.clip observations, ∃ time, observation = clipped.moveTo time := by
  obtain ⟨item, found, time, _, rfl⟩ := mem_carryForward member
  rcases List.mem_cons.mp found with rfl | clipped
  · exact .inl ⟨time, rfl⟩
  · exact .inr ⟨item, clipped, time, rfl⟩

/-- A quantity that is the same wherever an observation is moved, and zero where there is none. -/
structure Observation.IsTimeless (quantity : Observation α → α) : Prop where
  moved : ∀ observation time, quantity (observation.moveTo time) = quantity observation
  nothing : ∀ time state, quantity (.vacant time state) = Scalar.zero

theorem Observation.isTimeless_inUse (resource : Resource) :
    IsTimeless fun observation : Observation α => observation.inUse resource :=
  ⟨fun observation time => observation.inUse_moveTo time resource,
    fun time state => inUse_vacant time state resource⟩

namespace Timeline

theorem isTimeless_offeredNow (resource : Resource) :
    Observation.IsTimeless (offeredNow resource : Observation α → α) := by
  constructor
  · intro observation time
    unfold offeredNow
    rw [Observation.offered_moveTo]
    rfl
  · intro time state
    unfold offeredNow
    rw [Observation.offered_vacant, ite_self]

variable {timeline : Timeline α} {quantity : Observation α → α} {track : Track α}

/-- The series of one host in a chart of all of them. -/
def drawn (timeline : Timeline α) (quantity : Observation α → α) (track : Track α) :
    List (Point α) :=
  Chart.resample (timeline.hostChart quantity).axis (track.onGrid.map fun observation =>
    { x := toMilliseconds observation.time, y := quantity observation })

theorem hostChart_series (timeline : Timeline α) (quantity : Observation α → α) :
    (timeline.hostChart quantity).series =
      timeline.tracks.map fun track => (track.name, timeline.drawn quantity track) :=
  List.map_map

theorem hostChart_find? (distinct : (timeline.tracks.map Track.name).Nodup)
    (member : track ∈ timeline.tracks) (quantity : Observation α → α) :
    (timeline.hostChart quantity).find? track.name = some (timeline.drawn quantity track) := by
  rw [Chart.find?, hostChart_series]
  exact lookup_map_of_mem distinct member (timeline.drawn quantity)

theorem drawn_positions (timeline : Timeline α) (quantity : Observation α → α) (track : Track α) :
    (timeline.drawn quantity track).map Point.x = (timeline.hostChart quantity).axis :=
  map_carryForward (fun _ _ => rfl) _ _ _

variable {window : Window α} {hosts : HostMap (List (Observation α))}

theorem exists_of_mem_drawn (built : Timeline.build window hosts = .ok timeline)
    (timeless : Observation.IsTimeless quantity) (member : track ∈ timeline.tracks)
    {point : Point α} (shown : point ∈ timeline.drawn quantity track) :
    point.y = Scalar.zero ∨ ∃ observation ∈ track.observations, point.y = quantity observation := by
  obtain ⟨item, found, x, _, rfl⟩ := mem_carryForward shown
  rcases List.mem_cons.mp found with rfl | sorted
  · exact .inl rfl
  · obtain ⟨observation, onGrid, rfl⟩ := List.mem_map.mp (mem_stableSort.mp sorted)
    rw [(build_eq built).2] at member
    obtain ⟨host, _, rfl⟩ := List.mem_map.mp member
    rcases Track.exists_of_mem_onGrid onGrid with ⟨time, rfl⟩ | ⟨clipped, observed, time, rfl⟩
    · exact .inl (timeless.nothing time .off)
    · exact .inr ⟨clipped, observed, timeless.moved clipped time⟩

theorem capacity_total (timeline : Timeline α) (resource : Resource) :
    (timeline.capacity resource).total =
      Scalar.sum (timeline.tracks.map fun track => track.capacity resource) := by
  rw [← capacity_values]
  rfl

theorem capacity_find? (distinct : (timeline.tracks.map Track.name).Nodup)
    (member : track ∈ timeline.tracks) (resource : Resource) :
    (timeline.capacity resource).hosts.lookup track.name = some (track.capacity resource) :=
  lookup_map_of_mem distinct member fun track => track.capacity resource

end Timeline

end

/-- What a host offers and uses are finite numbers. -/
structure Observation.HasFiniteValues (observation : Observation Float) : Prop where
  offered : ∀ resource, (observation.offered resource).isFinite = true
  inUse : ∀ resource, (observation.inUse resource).isFinite = true

namespace Observation

variable {observation : Observation Float}

/-- Counts of 64 bits are finite numbers. -/
theorem hasFiniteValues_of_bounded (memory : observation.memory.isFinite = true)
    (memoryUsed : observation.memoryUsed.isFinite = true)
    (slots : observation.slots.natAbs < 2 ^ 64) (slotsUsed : observation.slotsUsed.natAbs < 2 ^ 64) :
    observation.HasFiniteValues := by
  constructor
  · intro resource
    cases resource with
    | slots => exact Binary64.isFinite_ofInt slots (by decide)
    | memory => exact memory
  · intro resource
    cases resource with
    | slots => exact Binary64.isFinite_ofInt slotsUsed (by decide)
    | memory => exact memoryUsed

theorem hasFiniteValues_vacant (time : Float) (state : PowerState) :
    (Observation.vacant time state).HasFiniteValues := by
  constructor
  · intro resource
    rw [offered_vacant]
    exact Binary64.isFinite_zero
  · intro resource
    rw [inUse_vacant]
    exact Binary64.isFinite_zero

theorem HasFiniteValues.moveTo (finite : observation.HasFiniteValues) (time : Float) :
    (observation.moveTo time).HasFiniteValues := by
  constructor
  · intro resource
    rw [offered_moveTo]
    exact finite.offered resource
  · intro resource
    rw [inUse_moveTo]
    exact finite.inUse resource

end Observation

namespace Track

variable {track : Track Float}

variable (finite : ∀ observation ∈ track.observations, observation.HasFiniteValues)

include finite

theorem isFinite_capacity (resource : Resource) : (track.capacity resource).isFinite = true := by
  rcases (track.isMost_capacity resource).attained with zero | member
  · rw [zero]
    exact Binary64.isFinite_zero
  · obtain ⟨observation, observed, same⟩ := List.mem_map.mp member
    rw [← same]
    exact (finite observation observed).offered resource

/-- What a host offers at a time is at most its capacity, also while it is not available. -/
theorem offeredNow_le_capacity {observation : Observation Float}
    (observed : observation ∈ track.observations) (resource : Resource) :
    (Timeline.offeredNow resource observation).isFinite = true ∧
      Timeline.offeredNow resource observation ≤ track.capacity resource := by
  have most := track.isMost_capacity resource
  unfold Timeline.offeredNow
  split
  · have own := (finite observation observed).offered resource
    exact ⟨own, most.above _ (List.mem_map_of_mem observed) (Binary64.le_self_of_isFinite own)⟩
  · exact ⟨Binary64.isFinite_zero, most.atLeastZero⟩

end Track

/-- A host's capacity is zero or was reported for it within the span. -/
theorem Track.capacity_reported (grid : TimeGrid Float) (name : String)
    (observations : List (Observation Float)) (resource : Resource) :
    (Track.build grid name observations).capacity resource = Scalar.zero ∨
      ∃ observation ∈ observations, grid.span.contains observation.time = true ∧
        (Track.build grid name observations).capacity resource = observation.offered resource := by
  rcases ((Track.build grid name observations).isMost_capacity resource).attained with
    zero | member
  · exact .inl zero
  · obtain ⟨clipped, observed, same⟩ := List.mem_map.mp member
    rcases Span.exists_of_mem_clip observed with ⟨time, rfl⟩ | ⟨reported, known, time, rfl⟩
    · exact .inl (same.symm.trans (Observation.offered_vacant time .unknown resource))
    · obtain ⟨own, within⟩ := Span.mem_observed.mp known
      exact .inr ⟨reported, own, within, same.symm.trans (reported.offered_moveTo time resource)⟩

namespace Timeline

/-- The clipped observations of all hosts have finite values. -/
def HasFiniteValues (timeline : Timeline Float) : Prop :=
  ∀ track ∈ timeline.tracks, ∀ observation ∈ track.observations, observation.HasFiniteValues

variable {window : Window Float} {hosts : HostMap (List (Observation Float))}
  {timeline : Timeline Float} {track : Track Float}

theorem hasFiniteValues_build (finite : ∀ observations ∈ hosts.values,
      ∀ observation ∈ observations, observation.HasFiniteValues)
    (built : Timeline.build window hosts = .ok timeline) : timeline.HasFiniteValues :=
  forall_clipped finite (fun time => Observation.hasFiniteValues_vacant time .unknown)
    (fun _ time own => own.moveTo time) built

theorem drawn_offered_le (built : Timeline.build window hosts = .ok timeline)
    (finite : timeline.HasFiniteValues) (member : track ∈ timeline.tracks) (resource : Resource)
    {point : Point Float} (shown : point ∈ timeline.drawn (offeredNow resource) track) :
    point.y.isFinite = true ∧ point.y ≤ track.capacity resource := by
  rcases exists_of_mem_drawn built (isTimeless_offeredNow resource) member shown with
    zero | ⟨observation, observed, same⟩
  · rw [zero]
    exact ⟨Binary64.isFinite_zero, (track.isMost_capacity resource).atLeastZero⟩
  · rw [same]
    exact Track.offeredNow_le_capacity (finite track member) observed resource

/-- What was measured without an error is nowhere drawn above the most that any host offers. -/
theorem drawn_inUse_le (built : Timeline.build window hosts = .ok timeline)
    (finite : timeline.HasFiniteValues) {loads : List (String × HostLoad Float)}
    (done : timeline.loads = .ok loads) (member : track ∈ timeline.tracks) (resource : Resource)
    {point : Point Float}
    (shown : point ∈ timeline.drawn (fun observation => observation.inUse resource) track) :
    point.y ≤ (timeline.capacity resource).max := by
  have most := timeline.isMost_max resource
  rcases exists_of_mem_drawn built (Observation.isTimeless_inUse resource) member shown with
    zero | ⟨observation, observed, same⟩
  · rw [zero]
    exact most.atLeastZero
  · -- An observation above the limit is an error where it is measured, also if it is never drawn.
    have within : ¬ (timeline.capacity resource).max < observation.inUse resource := by
      intro above
      obtain ⟨error, failed⟩ := loads_fails_iff.mpr
        ⟨track, member, resource, observation, observed, by rwa [exceeds_eq]⟩
      rw [done] at failed
      cases failed
    have own := Binary64.le_self_of_isFinite
      ((finite track member observation observed).inUse resource)
    rw [same]
    exact le_of_not_lt (le_self_of_le most.atLeastZero).2 own within

theorem max_le_total (finite : timeline.HasFiniteValues) (resource : Resource) :
    (timeline.capacity resource).max ≤ (timeline.capacity resource).total := by
  have positive : ∀ value ∈ timeline.tracks.map fun track => track.capacity resource,
      Scalar.zero ≤ value := by
    intro value member
    obtain ⟨track, _, rfl⟩ := List.mem_map.mp member
    exact (track.isMost_capacity resource).atLeastZero
  have numbers : ∀ value ∈ timeline.tracks.map fun track => track.capacity resource,
      value.isFinite = true := by
    intro value member
    obtain ⟨track, found, rfl⟩ := List.mem_map.mp member
    exact Track.isFinite_capacity (finite track found) resource
  rw [capacity_total]
  rcases (timeline.isMost_max resource).attained with zero | member
  · rw [zero]
    exact zero_le_sum positive numbers
  · exact le_sum positive numbers _ member

/-- All hosts on top of each other are at most the sum of their capacities, term by term. -/
theorem sum_valuesAt_le (built : Timeline.build window hosts = .ok timeline)
    (finite : timeline.HasFiniteValues) (resource : Resource) {place : Nat}
    (within : place < (timeline.hostChart (offeredNow resource)).axis.length) :
    Scalar.sum ((timeline.hostChart (offeredNow resource)).valuesAt place) ≤
      (timeline.capacity resource).total := by
  -- Every series has a point at the place, so the values are compared host by host.
  have shown (track : Track Float) :
      ∃ point, (timeline.drawn (offeredNow resource) track)[place]? = some point := by
    rw [← timeline.drawn_positions (offeredNow resource) track, List.length_map] at within
    exact ⟨_, List.getElem?_eq_getElem within⟩
  choose point found using shown
  have values : (timeline.hostChart (offeredNow resource)).valuesAt place =
      timeline.tracks.map fun track => (point track).y :=
    Chart.valuesAt_eq (timeline.hostChart_series (offeredNow resource)) fun track _ => by
      rw [found, Option.map_some]
  have bounded {track : Track Float} (member : track ∈ timeline.tracks) :=
    drawn_offered_le built finite member resource (List.mem_of_getElem? (found track))
  rw [values, capacity_total]
  exact sum_le_sum (fun track member => (bounded member).2) (fun track member => (bounded member).1)
    fun track member => Track.isFinite_capacity (finite track member) resource

/-- The capacities of a resource and the charts of it.  A host's capacity was reported within the
span, or is zero, and nothing that is drawn is more than is offered at most: neither of one host,
nor of all hosts on top of each other, nor is more used. -/
structure IsWithinCapacity (timeline : Timeline Float) (hosts : HostMap (List (Observation Float)))
    (resource : Resource) : Prop where
  listed : (timeline.capacity resource).hosts.map Prod.fst = hosts.sorted.map Prod.fst
  drawn : (timeline.resourceCharts resource).offered.series.map Prod.fst =
    hosts.sorted.map Prod.fst
  reported : ∀ name observations, hosts.find? name = some observations → ∃ most,
    (timeline.capacity resource).hosts.lookup name = some most ∧
      (most = Scalar.zero ∨ ∃ observation ∈ observations,
        timeline.grid.span.contains observation.time = true ∧
          most = observation.offered resource)
  offered : ∀ entry ∈ (timeline.capacity resource).hosts,
    ∃ points, (timeline.resourceCharts resource).offered.find? entry.1 = some points ∧
      points.map Point.x = (timeline.resourceCharts resource).offered.axis ∧
      ∀ point ∈ points, point.y ≤ entry.2
  greatest : ∀ entry ∈ (timeline.capacity resource).hosts,
    entry.2 ≤ (timeline.capacity resource).max
  total : (timeline.capacity resource).max ≤ (timeline.capacity resource).total
  stacked : ∀ place < (timeline.resourceCharts resource).offered.axis.length,
    Scalar.sum ((timeline.resourceCharts resource).offered.valuesAt place) ≤
      (timeline.capacity resource).total
  used : ∀ loads, timeline.loads = .ok loads → ∀ name ∈ hosts.names,
    ∃ points, (timeline.resourceCharts resource).used.find? name = some points ∧
      points.map Point.x = (timeline.resourceCharts resource).used.axis ∧
      ∀ point ∈ points, point.y ≤ (timeline.capacity resource).max

theorem isWithinCapacity_build (reportsFinite : ∀ observations ∈ hosts.values,
      ∀ observation ∈ observations, observation.HasFiniteValues)
    (built : Timeline.build window hosts = .ok timeline) (resource : Resource) :
    timeline.IsWithinCapacity hosts resource := by
  have finite := hasFiniteValues_build reportsFinite built
  have tracked := (build_eq built).2
  have distinct := nodup_names_build built
  have names : timeline.tracks.map Track.name = hosts.sorted.map Prod.fst := by
    rw [tracked, List.map_map]
    rfl
  constructor
  · rw [capacity_hosts, List.map_map]
    exact names
  · refine Eq.trans ?_ names
    change (timeline.hostChart (offeredNow resource)).series.map Prod.fst = _
    rw [hostChart_series, List.map_map]
    rfl
  · intro name observations found
    have member : Track.build timeline.grid name observations ∈ timeline.tracks := by
      rw [tracked]
      exact List.mem_map_of_mem (hosts.perm_sorted.mem_iff.mpr (HostMap.mem_of_find? found))
    exact ⟨_, capacity_find? distinct member resource,
      Track.capacity_reported timeline.grid name observations resource⟩
  · intro entry listed
    obtain ⟨track, member, rfl⟩ := List.mem_map.mp listed
    exact ⟨_, hostChart_find? distinct member _, timeline.drawn_positions _ track,
      fun point shown => (drawn_offered_le built finite member resource shown).2⟩
  · intro entry listed
    obtain ⟨track, member, rfl⟩ := List.mem_map.mp listed
    exact (timeline.isMost_max resource).above _ (List.mem_map_of_mem member)
      (le_self_of_le (track.isMost_capacity resource).atLeastZero).2
  · exact max_le_total finite resource
  · exact fun _ within => sum_valuesAt_le built finite resource within
  · intro loads done name known
    obtain ⟨observations, _, member⟩ := exists_track built known
    exact ⟨_, hostChart_find? distinct member _, timeline.drawn_positions _ _,
      fun point shown => drawn_inUse_le built finite done member resource shown⟩

/-- One host reports a negative amount of memory, one more than before when the window is over,
and one nothing at all. -/
def partlyReported : HostMap (List (Observation Float)) :=
  HostMap.ofList [
    ("node1", [
      { time := 1.0, state := .idle, slots := 2, slotsUsed := 0, memory := -2.0, memoryUsed := 0.0 },
      { time := 4.0, state := .used, slots := 2, slotsUsed := 1, memory := -2.0, memoryUsed := 4.0 }]),
    ("node2", [
      { time := 2.0, state := .used, slots := 4, slotsUsed := 4, memory := 8.0, memoryUsed := 8.0 },
      { time := 9.0, state := .used, slots := 4, slotsUsed := 4, memory := 64.0, memoryUsed := 8.0 }]),
    ("node3", [])]

theorem isWithinCapacity_build_partly_reported : ∃ timeline,
    Timeline.build { latest := some 5.0 } partlyReported = .ok timeline ∧
      (timeline.capacity .memory).hosts.map Prod.snd = [0.0, 8.0, 0.0] ∧
      (timeline.resourceCharts .memory).offered.valuesAt 0 = [-2.0, 8.0, 0.0] ∧
      ∀ resource, timeline.IsWithinCapacity partlyReported resource := by
  have shown : (Timeline.build { latest := some 5.0 } partlyReported).toOption.map (fun timeline =>
      ((timeline.capacity .memory).hosts.map Prod.snd,
        (timeline.resourceCharts .memory).offered.valuesAt 0)) =
      some ([0.0, 8.0, 0.0], [-2.0, 8.0, 0.0]) := by
    decide +kernel
  obtain ⟨timeline, found, read⟩ := Option.map_eq_some_iff.mp shown
  obtain ⟨capacities, values⟩ := Prod.mk.inj read
  have bounded : ∀ observations ∈ partlyReported.values, ∀ observation ∈ observations,
      (observation.memory.isFinite = true ∧ observation.memoryUsed.isFinite = true) ∧
        observation.slots.natAbs < 2 ^ 64 ∧ observation.slotsUsed.natAbs < 2 ^ 64 := by
    decide +kernel
  have finite : ∀ observations ∈ partlyReported.values, ∀ observation ∈ observations,
      observation.HasFiniteValues := by
    intro observations member observation reported
    obtain ⟨memory, slots⟩ := bounded observations member observation reported
    exact Observation.hasFiniteValues_of_bounded memory.1 memory.2 slots.1 slots.2
  exact ⟨timeline, eq_ok_of_toOption found, capacities, values,
    isWithinCapacity_build finite (eq_ok_of_toOption found)⟩

end Timeline

end HostTimeline
