import HostTimeline.Proofs.Chart
import HostTimeline.Proofs.Milliseconds
import HostTimeline.Proofs.Track

/-!
The charts of a timeline against its grid.  The series that are drawn have one point for each
grid point, and aligning them keeps that exactly if no two grid points come to lie at one
position (`isAligned_iff`).
-/

namespace HostTimeline

variable {α : Type} [Scalar α]

theorem lookup_all {β : Type} (value : PowerState → β) (state : PowerState) :
    (PowerState.all.map fun state => (state, value state)).lookup state = some (value state) := by
  cases state <;> rfl

namespace Timeline

/-- Where the grid points lie on a chart. -/
def positions (timeline : Timeline α) : List α :=
  timeline.grid.points.map toMilliseconds

def HasDistinctPositions (timeline : Timeline α) : Prop :=
  timeline.positions.Pairwise fun left right => ¬ (left == right) = true

/-- The number of hosts in each state at every grid point. -/
def stateCounts (timeline : Timeline α) : List (PowerState × List (Point α)) :=
  PowerState.all.map fun state =>
    (state, timeline.grid.points.mapIdx fun index time =>
      { x := toMilliseconds time
        y := Scalar.ofInt (hostsIn (timeline.tracks.map fun track => track.onGrid.toArray)
          state index) })

/-- A quantity of each host at every grid point. -/
def hostSeries (timeline : Timeline α) (quantity : Observation α → α) :
    List (String × List (Point α)) :=
  timeline.tracks.map fun track =>
    (track.name, track.onGrid.map fun observation =>
      { x := toMilliseconds observation.time, y := quantity observation })

/-- Every series of every chart has one point for each grid point, at its position. -/
structure IsAligned (timeline : Timeline α) : Prop where
  states : ∀ entry ∈ timeline.stateChart.series, entry.2.map Point.x = timeline.positions
  offered : ∀ resource, ∀ entry ∈ (timeline.resourceCharts resource).offered.series,
    entry.2.map Point.x = timeline.positions
  used : ∀ resource, ∀ entry ∈ (timeline.resourceCharts resource).used.series,
    entry.2.map Point.x = timeline.positions

/-- Every host has one observation for each grid point, at its time. -/
def IsOnGrid (timeline : Timeline α) : Prop :=
  ∀ track ∈ timeline.tracks, track.onGrid.map Observation.time = timeline.grid.points

theorem isOnGrid_build {window : Window α} {hosts : HostMap (List (Observation α))}
    {timeline : Timeline α} (built : Timeline.build window hosts = .ok timeline) :
    timeline.IsOnGrid := by
  obtain ⟨_, tracks⟩ := build_eq built
  intro track member
  rw [tracks] at member
  obtain ⟨host, _, rfl⟩ := List.mem_map.mp member
  exact map_carryForward (fun _ _ => rfl) _ _ _

theorem nodup_names_build {window : Window α} {hosts : HostMap (List (Observation α))}
    {timeline : Timeline α} (built : Timeline.build window hosts = .ok timeline) :
    (timeline.tracks.map Track.name).Nodup := by
  obtain ⟨_, tracks⟩ := build_eq built
  rw [tracks, List.map_map]
  exact hosts.perm_sorted_names.nodup_iff.mpr hosts.distinct

theorem stateCounts_positions (timeline : Timeline α) :
    ∀ entry ∈ timeline.stateCounts, entry.2.map Point.x = timeline.positions := by
  intro entry member
  obtain ⟨state, _, rfl⟩ := List.mem_map.mp member
  refine List.ext_getElem? fun index => ?_
  simp [positions, List.getElem?_mapIdx, Function.comp_def]

theorem hostSeries_positions {timeline : Timeline α} (onGrid : timeline.IsOnGrid)
    (quantity : Observation α → α) :
    ∀ entry ∈ timeline.hostSeries quantity, entry.2.map Point.x = timeline.positions := by
  intro entry member
  obtain ⟨track, found, rfl⟩ := List.mem_map.mp member
  unfold positions
  rw [← onGrid track found, List.map_map, List.map_map]
  rfl

theorem stateChart_exists (timeline : Timeline α) : ∃ series : PowerState → List (Point α),
    timeline.stateChart.series = PowerState.all.map fun state => (state, series state) :=
  ⟨_, List.map_map⟩

theorem stateChart_find? (timeline : Timeline α) (state : PowerState) :
    timeline.stateChart.find? state = some (Chart.resample (Chart.axisOf timeline.stateCounts)
      (timeline.grid.points.mapIdx fun index time =>
        { x := toMilliseconds time
          y := Scalar.ofInt (hostsIn (timeline.tracks.map fun track => track.onGrid.toArray)
            state index) })) := by
  have drawn : timeline.stateChart.series = PowerState.all.map fun state => (state, _) := List.map_map
  rw [Chart.find?, drawn, lookup_all]
  rfl

theorem stateCounts_ne_nil (timeline : Timeline α) : timeline.stateCounts ≠ [] :=
  fun none => by simp [stateCounts, PowerState.all] at none

variable [OrderedScalar α]

open OrderedScalar

/-- Positions in the order of the grid, where equal ones are next to each other. -/
structure IsAscending (timeline : Timeline α) : Prop where
  comparable : ∀ x ∈ timeline.positions, x ≤ x
  ascending : timeline.positions.Pairwise (· ≤ ·)

theorem IsAscending.increasing {timeline : Timeline α} (ascending : timeline.IsAscending)
    (distinct : timeline.HasDistinctPositions) : timeline.positions.Pairwise (· < ·) := by
  refine (List.pairwise_and_iff.mpr ⟨ascending.ascending, distinct⟩).imp ?_
  intro left right both
  exact (lt_or_beq_of_le both.1).resolve_right both.2

theorem stateChart_eq {timeline : Timeline α} (ascending : timeline.IsAscending)
    (distinct : timeline.HasDistinctPositions) :
    timeline.stateChart.series = timeline.stateCounts :=
  Chart.align_series timeline.stateCounts_positions (ascending.increasing distinct)
    ascending.comparable

theorem hostChart_eq {timeline : Timeline α} (ascending : timeline.IsAscending)
    (onGrid : timeline.IsOnGrid) (distinct : timeline.HasDistinctPositions)
    (quantity : Observation α → α) :
    (timeline.hostChart quantity).series = timeline.hostSeries quantity :=
  Chart.align_series (hostSeries_positions onGrid quantity) (ascending.increasing distinct)
    ascending.comparable

/-- If two grid points share a position, every series of the chart of states is too short. -/
theorem length_stateChart_lt {timeline : Timeline α} (ascending : timeline.IsAscending)
    (shared : ¬ timeline.HasDistinctPositions) {entry : PowerState × List (Point α)}
    (member : entry ∈ timeline.stateChart.series) :
    entry.2.length < timeline.grid.points.length := by
  have length : entry.2.length = (Chart.axisOf timeline.stateCounts).length :=
    Chart.length_of_mem_align member
  rw [length]
  refine Nat.lt_of_not_le fun long => shared ?_
  refine Chart.not_beq_of_length_axisOf timeline.stateCounts_positions ascending.comparable ?_
  rwa [positions, List.length_map]

theorem isAligned_iff {timeline : Timeline α} (ascending : timeline.IsAscending)
    (onGrid : timeline.IsOnGrid) : timeline.IsAligned ↔ timeline.HasDistinctPositions := by
  constructor
  · intro aligned
    by_contra shared
    obtain ⟨entry, member⟩ := List.exists_mem_of_ne_nil _ timeline.stateCounts_ne_nil
    have drawn : (entry.1, Chart.resample (Chart.axisOf timeline.stateCounts) entry.2) ∈
        timeline.stateChart.series := List.mem_map_of_mem member
    have short := length_stateChart_lt ascending shared drawn
    have whole := congrArg List.length (aligned.states _ drawn)
    rw [List.length_map, positions, List.length_map] at whole
    omega
  · intro distinct
    constructor
    · rw [stateChart_eq ascending distinct]
      exact timeline.stateCounts_positions
    · intro resource entry member
      refine hostSeries_positions onGrid (offeredNow resource) entry ?_
      rw [← hostChart_eq ascending onGrid distinct]
      exact member
    · intro resource entry member
      refine hostSeries_positions onGrid (fun observation => observation.inUse resource) entry ?_
      rw [← hostChart_eq ascending onGrid distinct]
      exact member

theorem isFinite_points {window : Window Float} {hosts : HostMap (List (Observation Float))}
    {timeline : Timeline Float} (windowFinite : window.IsFinite)
    (timesFinite : ∀ observations ∈ hosts.values, ∀ observation ∈ observations,
      observation.time.isFinite = true)
    (built : Timeline.build window hosts = .ok timeline) :
    ∀ point ∈ timeline.grid.points, point.isFinite = true := by
  intro point member
  rcases TimeGrid.mem_build (build_eq built).1 member with observed | earliest | latest
  · exact isFinite_times timesFinite point observed
  · exact windowFinite.earliest point earliest
  · exact windowFinite.latest point latest

/-- The positions of ascending grid points are in their order. -/
theorem isAscending_of_increasing {timeline : Timeline Float}
    (comparable : ∀ point ∈ timeline.grid.points, point ≤ point)
    (increasing : timeline.grid.points.Pairwise (· < ·)) : timeline.IsAscending := by
  constructor
  · intro x member
    obtain ⟨point, found, rfl⟩ := List.mem_map.mp member
    exact toMilliseconds_le (comparable point found)
  · exact List.pairwise_map.mpr (increasing.imp fun less =>
      toMilliseconds_le (OrderedScalar.le_of_lt less))

theorem isAscending_build {window : Window Float} {hosts : HostMap (List (Observation Float))}
    {timeline : Timeline Float} (windowFinite : window.IsFinite)
    (timesFinite : ∀ observations ∈ hosts.values, ∀ observation ∈ observations,
      observation.time.isFinite = true)
    (built : Timeline.build window hosts = .ok timeline) : timeline.IsAscending :=
  isAscending_of_increasing
    (fun point member =>
      Binary64.le_self_of_isFinite (isFinite_points windowFinite timesFinite built point member))
    (isSpanned_build windowFinite timesFinite built).increasing

end Timeline

end HostTimeline
