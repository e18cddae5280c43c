import HostTimeline.Proofs.Number.Addition
import HostTimeline.Proofs.Number.Linear
import HostTimeline.Proofs.Spanning
import HostTimeline.Proofs.Timeline

/-!
Every host is counted once at every point of the chart of states (`Timeline.countsHosts_build`).
At each x of the chart all states show their counts at the same grid point, also where grid
points have come to lie at one position, and where the window begins at a NaN.
-/

namespace HostTimeline

open OrderedScalar

theorem PowerState.base_base (state : PowerState) : state.base.base = state.base := by
  cases state <;> rfl

namespace Timeline

variable {α : Type} {timeline : Timeline α}

/-- The number of hosts that count as being in a state at a grid point. -/
def hostsAt (timeline : Timeline α) (state : PowerState) (index : Nat) : Nat :=
  timeline.tracks.countP fun track =>
    (track.onGrid[index]?).any fun observation => decide (observation.state.base = state)

theorem hostsIn_eq_hostsAt (timeline : Timeline α) (state : PowerState) (index : Nat) :
    hostsIn (timeline.tracks.map fun track => track.onGrid.toArray) state index =
      timeline.hostsAt state index := by
  unfold hostsIn hostsAt
  rw [List.countP_map]
  refine List.countP_congr fun track _ => ?_
  simp only [Function.comp_apply, List.getElem?_toArray]

/-- Each host counts as being in one of the states. -/
theorem sum_countP_states {tracks : List (Track α)} {index : Nat}
    (inside : ∀ track ∈ tracks, index < track.onGrid.length) :
    (PowerState.all.map fun state => tracks.countP fun track =>
      (track.onGrid[index]?).any fun observation =>
        decide (observation.state.base = state)).sum = tracks.length := by
  have once (state : PowerState) :
      (PowerState.all.map fun other => if state = other then 1 else 0).sum = 1 := by
    cases state <;> decide
  induction tracks with
  | nil => rfl
  | cons track rest ih =>
      obtain ⟨here, later⟩ := List.forall_mem_cons.mp inside
      simp only [List.countP_cons, List.sum_map_add, ih later, List.getElem?_eq_getElem here,
        Option.any_some, decide_eq_true_eq, once, List.length_cons]

/-- No host counts as being in a state that degrades to another one. -/
theorem hostsAt_of_degraded {state : PowerState} (degraded : state.base ≠ state) (index : Nat) :
    timeline.hostsAt state index = 0 := by
  refine List.countP_eq_zero.mpr fun track _ counted => ?_
  obtain ⟨observation, _, shown⟩ := (Option.any_eq_true _ _).mp counted
  rw [← of_decide_eq_true shown, PowerState.base_base] at degraded
  exact degraded rfl

theorem sum_hostsAt (onGrid : timeline.IsOnGrid) {index : Nat}
    (inside : index < timeline.grid.points.length) :
    (PowerState.all.map fun state => timeline.hostsAt state index).sum =
      timeline.tracks.length := by
  refine sum_countP_states fun track member => ?_
  rwa [← List.length_map Observation.time, onGrid track member]

variable [Scalar α]

theorem stateChart_positions {state : PowerState} {points : List (Point α)}
    (found : timeline.stateChart.find? state = some points) :
    points.map Point.x = timeline.stateChart.axis := by
  rw [stateChart_find?] at found
  cases found
  exact map_carryForward (fun _ _ => rfl) _ _ _

/-- The nine counts at one place of the axis are those at one grid point. -/
theorem stateChart_reads (together : Chart.IsReadTogether timeline.positions timeline.stateChart.axis)
    {place : Nat} {x : α} (found : timeline.stateChart.axis[place]? = some x) :
    ∃ index < timeline.grid.points.length,
      (x ≤ x → IsLastReached timeline.positions x index) ∧
      (¬ x ≤ x → index + 1 = timeline.grid.points.length) ∧
      (∀ state points, timeline.stateChart.find? state = some points →
        points[place]? = some { x, y := Scalar.ofInt (timeline.hostsAt state index) }) ∧
      timeline.stateChart.valuesAt place =
        PowerState.all.map fun state => Scalar.ofInt (timeline.hostsAt state index) := by
  obtain ⟨index, inside, last, undefined, shown⟩ := together place x found
  have gridLength : timeline.positions.length = timeline.grid.points.length :=
    List.length_map toMilliseconds
  rw [gridLength] at inside undefined
  have read (state : PowerState) :
      (Chart.resample timeline.stateChart.axis (timeline.grid.points.mapIdx fun index time =>
        { x := toMilliseconds time
          y := Scalar.ofInt (hostsIn (timeline.tracks.map fun track => track.onGrid.toArray)
            state index) }))[place]? =
        some { x, y := Scalar.ofInt (timeline.hostsAt state index) } := by
    obtain ⟨point, pointFound, shown⟩ := shown _ (timeline.stateCounts_positions (state, _)
      (List.mem_map_of_mem (PowerState.mem_all state)))
    rw [shown]
    rw [List.getElem?_mapIdx, List.getElem?_eq_getElem inside] at pointFound
    cases pointFound
    rw [hostsIn_eq_hostsAt]
  refine ⟨index, inside, last, undefined, ?_, ?_⟩
  · intro state points found
    rw [stateChart_find?] at found
    cases found
    exact read state
  · exact Chart.valuesAt_eq List.map_map fun state _ => congrArg (Option.map Point.y) (read state)

/-- Every host is counted once wherever the chart of states has a point. -/
structure CountsHosts (timeline : Timeline Float)
    (hosts : HostMap (List (Observation Float))) : Prop where
  tracked : timeline.tracks = hosts.sorted.map fun host =>
    Track.build timeline.grid host.1 host.2
  drawn : ∀ state, ∃ points, timeline.stateChart.find? state = some points ∧
    points.map Point.x = timeline.stateChart.axis
  /-- All states show the counts at one grid point: the last one that does not lie beyond x, or
  the last of the grid for a NaN.  The latter is a rule of numbers that have a single NaN, which
  `Binary64.rank` puts behind all others; in an order that tells NaNs by their signs, one with a
  minus sign comes first. -/
  counted : ∀ (place : Nat) (x : Float), timeline.stateChart.axis[place]? = some x →
    ∃ index < timeline.grid.points.length,
      (x.isNaN = false → IsLastReached timeline.positions x index) ∧
      (x.isNaN = true → index + 1 = timeline.grid.points.length) ∧
      (∀ state points, timeline.stateChart.find? state = some points →
        points[place]? = some { x, y := Scalar.ofInt (timeline.hostsAt state index) }) ∧
      (PowerState.all.map fun state => timeline.hostsAt state index).sum = hosts.entries.length
  /-- The counts are added up exactly as long as the number of hosts is a binary64 number. -/
  summed : hosts.entries.length < 2 ^ 53 → ∀ place < timeline.stateChart.axis.length,
    (Scalar.sum (timeline.stateChart.valuesAt place) ==
      Scalar.ofInt hosts.entries.length) = true
  errors : ∀ state, state = .onError ∨ state = .offError → ∀ points,
    timeline.stateChart.find? state = some points → ∀ point ∈ points, point.y = Scalar.zero

variable {window : Window Float} {hosts : HostMap (List (Observation Float))}
  {timeline : Timeline Float}

theorem isReadTogether_of_ordered (built : Timeline.build window hosts = .ok timeline)
    (ordered : timeline.grid.span.start ≤ timeline.grid.span.stop) :
    Chart.IsReadTogether timeline.positions timeline.stateChart.axis := by
  have spanned := TimeGrid.isSpanned_of_ordered (build_eq built).1 ordered
  have ascending : timeline.IsAscending := isAscending_of_increasing
    (fun point member => (le_self_of_le (spanned.start_le_of_mem member)).2) spanned.increasing
  have sorted : timeline.positions.Pairwise fun left right => Scalar.precedes left right :=
    List.pairwise_map.mpr (spanned.increasing.imp fun less =>
      precedes_of_le (toMilliseconds_le (OrderedScalar.le_of_lt less))
        (toMilliseconds_eq_of_beq less))
  refine Chart.isReadTogether_of_ascending sorted ascending.ascending ?_ fun x member => ?_
  · exact (Chart.pairwise_axisOf (Chart.comparable_points timeline.stateCounts_positions
      ascending.comparable)).imp OrderedScalar.le_of_lt
  · have own := Chart.mem_axisOf timeline.stateCounts_positions member
    exact ⟨own, ascending.comparable x own⟩

/-- A window that begins at a NaN where nothing was observed has a grid of its two ends. -/
theorem isReadTogether_of_undefined (built : Timeline.build window hosts = .ok timeline)
    (nothing : (hosts.values.flatMap fun observations => observations.map Observation.time) = [])
    {earliest : Float} (asked : window.earliest = some earliest)
    (undefined : earliest.isNaN = true) :
    Chart.IsReadTogether timeline.positions timeline.stateChart.axis := by
  obtain ⟨resolved, made⟩ := TimeGrid.build_eq (build_eq built).1
  rw [nothing] at resolved made
  obtain ⟨start, stop, _⟩ := Window.ends_of_unobserved resolved
  obtain rfl : earliest = timeline.grid.span.start := Option.some.inj (asked.symm.trans start)
  have stopComparable := Window.comparable_latestAsked stop
  have differ : ¬ (timeline.grid.span.start == timeline.grid.span.stop) = true := by
    intro same
    have number := (Binary64.beq_iff.mp same).1
    rw [undefined] at number
    cases number
  have points : timeline.grid.points = [timeline.grid.span.start, timeline.grid.span.stop] := by
    have none : withoutOutliers (TimeGrid.distinctTimes timeline.grid.span []) = [] := rfl
    rw [made, TimeGrid.ofSpan, none, TimeGrid.betweenEnds, if_neg differ]
    rfl
  have positions : timeline.positions =
      [toMilliseconds timeline.grid.span.start, toMilliseconds timeline.grid.span.stop] := by
    rw [Timeline.positions, points]
    rfl
  have firstUndefined := Binary64.isNaN_toMilliseconds undefined
  have lastComparable := toMilliseconds_le stopComparable
  rw [positions]
  refine Chart.isReadTogether_of_undefined ?_
    (Binary64.not_precedes_of_isNaN firstUndefined (Binary64.le_iff.mp lastComparable).1)
    lastComparable fun entry member => (timeline.stateCounts_positions entry member).trans positions
  intro x reached
  have number := (Binary64.le_iff.mp reached).1
  rw [firstUndefined] at number
  cases number

/-- The ends of the window can be compared unless it begins at a NaN where nothing was observed. -/
theorem isReadTogether_stateChart (timesFinite : ∀ observations ∈ hosts.values,
      ∀ observation ∈ observations, observation.time.isFinite = true)
    (built : Timeline.build window hosts = .ok timeline) :
    Chart.IsReadTogether timeline.positions timeline.stateChart.axis := by
  have gridBuilt := (build_eq built).1
  by_cases known : (hosts.values.flatMap fun observations => observations.map Observation.time) = []
      → ∀ time ∈ window.earliest, time ≤ time
  · obtain ⟨start, stop⟩ := Window.comparable_resolve
      (fun time member => Binary64.le_self_of_isFinite (isFinite_times timesFinite time member))
      known (TimeGrid.build_eq gridBuilt).1
    exact isReadTogether_of_ordered built (TimeGrid.start_le_stop_build gridBuilt start stop)
  · obtain ⟨nothing, earliest, asked, incomparable⟩ :
        (hosts.values.flatMap fun observations => observations.map Observation.time) = [] ∧
          ∃ earliest ∈ window.earliest, ¬ earliest ≤ earliest := by
      simpa only [Classical.not_imp, not_forall, exists_prop] using known
    refine isReadTogether_of_undefined built nothing asked
      (eq_true_of_ne_false fun number => ?_)
    exact incomparable (Binary64.le_iff.mpr ⟨number, number, Int.le_refl _⟩)

/-- A series of a degraded state is zero wherever it has a point. -/
theorem eq_zero_of_degraded
    (together : Chart.IsReadTogether timeline.positions timeline.stateChart.axis)
    {state : PowerState} (degraded : state.base ≠ state) {points : List (Point Float)}
    (found : timeline.stateChart.find? state = some points) :
    ∀ point ∈ points, point.y = Scalar.zero := by
  intro point member
  obtain ⟨place, pointFound⟩ := List.getElem?_of_mem member
  have onAxis : timeline.stateChart.axis[place]? = some point.x := by
    rw [← stateChart_positions found, List.getElem?_map, pointFound, Option.map_some]
  obtain ⟨index, _, _, _, read, _⟩ := stateChart_reads together onAxis
  have shown := read state points found
  rw [hostsAt_of_degraded degraded, pointFound] at shown
  exact congrArg Point.y (Option.some.inj shown)

theorem countsHosts_build (timesFinite : ∀ observations ∈ hosts.values,
      ∀ observation ∈ observations, observation.time.isFinite = true)
    (built : Timeline.build window hosts = .ok timeline) : timeline.CountsHosts hosts := by
  have together := isReadTogether_stateChart timesFinite built
  have tracked := (build_eq built).2
  have hostCount : timeline.tracks.length = hosts.entries.length := by
    rw [tracked, List.length_map]
    exact hosts.perm_sorted.length_eq
  have total {index : Nat} (inside : index < timeline.grid.points.length) :
      (PowerState.all.map fun state => timeline.hostsAt state index).sum = hosts.entries.length :=
    (sum_hostsAt (isOnGrid_build built) inside).trans hostCount
  constructor
  · exact tracked
  · exact fun state =>
      ⟨_, timeline.stateChart_find? state, stateChart_positions (timeline.stateChart_find? state)⟩
  · intro place x found
    obtain ⟨index, inside, last, undefined, read, _⟩ := stateChart_reads together found
    refine ⟨index, inside, fun number => last ?_, fun isNaN => undefined fun le => ?_, read,
      total inside⟩
    · exact Binary64.le_iff.mpr ⟨number, number, Int.le_refl _⟩
    · have number := (Binary64.le_iff.mp le).1
      rw [isNaN] at number
      cases number
  · intro bounded place within
    obtain ⟨index, inside, _, _, _, values⟩ :=
      stateChart_reads together (List.getElem?_eq_getElem within)
    have added := sum_ofInt (PowerState.all.map fun state => timeline.hostsAt state index)
      ((total inside).trans_lt bounded)
    rw [values, ← total inside]
    rwa [List.map_map] at added
  · rintro state (rfl | rfl) points found
    · exact eq_zero_of_degraded together (by decide) found
    · exact eq_zero_of_degraded together (by decide) found

/-- Two hosts on a grid of three points. -/
theorem countsHosts_build_two_hosts : ∃ timeline, Timeline.build {} twoHosts = .ok timeline ∧
    timeline.stateChart.valuesAt 1 = [0, 0, 0, 1, 1, 0, 0, 0, 0] ∧
    timeline.CountsHosts twoHosts := by
  have values : (Timeline.build {} twoHosts).toOption.map
      (fun timeline => timeline.stateChart.valuesAt 1) = some [0, 0, 0, 1, 1, 0, 0, 0, 0] := by
    decide +kernel
  obtain ⟨timeline, found, shown⟩ := Option.map_eq_some_iff.mp values
  exact ⟨timeline, eq_ok_of_toOption found, shown,
    countsHosts_build (by decide +kernel) (eq_ok_of_toOption found)⟩

end Timeline

end HostTimeline
