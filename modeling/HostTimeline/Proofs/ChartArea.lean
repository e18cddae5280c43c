import HostTimeline.Proofs.Area
import HostTimeline.Proofs.Clipping
import HostTimeline.Proofs.Durations
import HostTimeline.Proofs.Figures

/-!
Charts and tables agree in exact arithmetic.  The area under a chart of a resource is the area
that the table gives for the host, and the area under the count of hosts in a state is the time
that all hosts together were in it (`Timeline.areasAgree_build`).
-/

namespace HostTimeline

/-- The area under the values of a series, each up to the next grid point. -/
def TimeGrid.areaUnder (grid : TimeGrid Rat) (points : List (Point Rat)) : Rat :=
  integral Prod.fst Prod.snd (grid.points.zip (points.map Point.y))

/-- How long a host was in the states that count as one. -/
def Occupancy.countedAs (occupancy : Occupancy Rat) (state : PowerState) : Rat :=
  ((PowerState.all.filter fun other => decide (other.base = state)).map fun other =>
    (occupancy.inState other).duration).sum

theorem cast_countP {β : Type} (holds : β → Bool) (items : List β) :
    (items.countP holds : Rat) = (items.map fun item => if holds item then 1 else 0).sum := by
  induction items with
  | nil => rfl
  | cons item rest ih =>
      rw [List.countP_cons, List.map_cons, List.sum_cons, ← ih]
      split <;> push_cast <;> ring

namespace Track

variable {track : Track Rat}

theorem countedAs_occupancy (track : Track Rat) (state : PowerState) :
    track.occupancy.countedAs state = integral Observation.time
      (fun observation => if observation.state.base = state then 1 else 0) track.observations := by
  have durations (other : PowerState) : (track.occupancy.inState other).duration = _ :=
    Occupancy.sum_ofObservations PowerState.isAvailable track.observations (.inState other)
  simp only [Occupancy.countedAs, durations]
  rw [← integral_sum]
  refine integral_congr fun observation _ => ?_
  cases observation.state <;> cases state <;>
    simp [Occupancy.Quantity.weight, PowerState.all, PowerState.base]

/-- What is summed up by grid index is what is summed up by observation. -/
theorem integral_zipIdx {points : List Rat} (onGrid : track.onGrid.map Observation.time = points)
    (holds : Observation Rat → Bool) :
    integral Prod.fst (fun place : Rat × Nat =>
        if (track.onGrid.toArray[place.2]?).any holds then 1 else 0) points.zipIdx =
      integral Observation.time (fun observation => if holds observation then 1 else 0)
        track.onGrid := by
  have placed : track.onGrid = track.onGrid.zipIdx.map Prod.fst := (List.zipIdx_map_fst 0 track.onGrid).symm
  rw [← onGrid, List.zipIdx_map, integral_map]
  conv_rhs => rw [placed, integral_map]
  refine integral_congr fun place member => ?_
  have found := List.mem_zipIdx_iff_getElem?.mp member
  simp [found]

end Track

namespace Timeline

variable {timeline : Timeline Rat}

theorem zip_mapIdx {γ δ : Type} (points : List Rat) (change : Nat → Rat → γ) (view : γ → δ) :
    points.zip ((points.mapIdx change).map view) =
      points.zipIdx.map fun place => (place.1, view (change place.2 place.1)) := by
  have paired : (points.zipIdx.map Prod.fst).zip
      (points.zipIdx.map fun place => view (change place.2 place.1)) =
        points.zipIdx.map fun place => (place.1, view (change place.2 place.1)) := List.zip_map'
  rw [List.zipIdx_map_fst] at paired
  rw [List.mapIdx_eq_zipIdx_map, List.map_map, ← paired]
  rfl

/-- Counting the hosts at each time is timing each host. -/
theorem areaUnder_hostsIn (onGrid : timeline.IsOnGrid) (state : PowerState) :
    timeline.grid.areaUnder (timeline.grid.points.mapIdx fun index time =>
        { x := toMilliseconds time
          y := Scalar.ofInt (hostsIn (timeline.tracks.map fun track => track.onGrid.toArray)
            state index) }) =
      (timeline.tracks.map fun track => integral Observation.time
        (fun observation => if observation.state.base = state then 1 else 0) track.onGrid).sum := by
  have counted (index : Nat) :
      (Scalar.ofInt (hostsIn (timeline.tracks.map fun track => track.onGrid.toArray) state index) :
        Rat) = (timeline.tracks.map fun track => if (track.onGrid.toArray[index]?).any
          (fun observation => decide (observation.state.base = state)) then 1 else 0).sum := by
    have cast (count : Nat) : (Scalar.ofInt (count : Int) : Rat) = count := rfl
    rw [cast, hostsIn, List.countP_map, cast_countP]
    rfl
  rw [TimeGrid.areaUnder, zip_mapIdx, integral_map]
  -- Sum over the grid for each host, rather than over the hosts at each point.
  simp only [counted]
  rw [integral_sum]
  refine congrArg List.sum (List.map_congr_left fun track member => ?_)
  have timed := Track.integral_zipIdx (onGrid track member) fun observation =>
    decide (observation.state.base = state)
  simpa using timed

theorem areaUnder_hostSeries {track : Track Rat} (onGrid : track.onGrid.map Observation.time =
      timeline.grid.points) (quantity : Observation Rat → Rat) :
    timeline.grid.areaUnder (track.onGrid.map fun observation =>
        { x := toMilliseconds observation.time, y := quantity observation }) =
      integral Observation.time quantity track.onGrid := by
  rw [TimeGrid.areaUnder, ← onGrid, List.map_map, List.zip_map', integral_map]
  rfl

variable {window : Window Rat} {hosts : HostMap (List (Observation Rat))}

theorem isSpanned_exact (built : Timeline.build window hosts = .ok timeline) :
    timeline.grid.IsSpanned
      (hosts.values.flatMap fun observations => observations.map Observation.time) :=
  TimeGrid.isSpanned_of_comparable ⟨fun _ _ => le_rfl, fun _ _ => le_rfl⟩ (fun _ _ => le_rfl)
    (build_eq built).1

theorem isAscending_exact (built : Timeline.build window hosts = .ok timeline) :
    timeline.IsAscending ∧ timeline.HasDistinctPositions := by
  have increasing : timeline.positions.Pairwise fun left right => left < right := by
    refine List.pairwise_map.mpr ((isSpanned_exact built).increasing.imp fun less => ?_)
    exact mul_lt_mul_of_pos_right less (show (0 : Rat) < (1000 : Int) by norm_num)
  exact ⟨⟨fun _ _ => le_rfl, increasing.imp le_of_lt⟩,
    increasing.imp fun less same => less.ne (eq_of_beq same)⟩

theorem ShowsAll.integral_eq (shows : timeline.ShowsAll hosts)
    (built : Timeline.build window hosts = .ok timeline) {track : Track Rat}
    (member : track ∈ timeline.tracks) {value : Observation Rat → Rat}
    (kept : ∀ observation time, value (observation.moveTo time) = value observation) :
    integral Observation.time value track.onGrid =
      integral Observation.time value track.observations := by
  obtain ⟨first, rest, filled, observed, onGrid, fills⟩ := shows.exists_fills built
    ⟨fun _ _ => le_rfl, fun _ _ => le_rfl⟩ (fun _ _ => le_rfl)
    (fun _ _ _ _ same => eq_of_beq same) member
  rw [observed, onGrid, fills.integral_eq (fun _ _ => rfl) kept]

theorem find?_stateChart (built : Timeline.build window hosts = .ok timeline)
    (state : PowerState) : timeline.stateChart.find? state =
      some (timeline.grid.points.mapIdx fun index time =>
        { x := toMilliseconds time
          y := Scalar.ofInt (hostsIn (timeline.tracks.map fun track => track.onGrid.toArray)
            state index) }) := by
  obtain ⟨ascending, distinct⟩ := isAscending_exact built
  rw [Chart.find?, stateChart_eq ascending distinct]
  cases state <;> rfl

theorem find?_hostChart (built : Timeline.build window hosts = .ok timeline) {track : Track Rat}
    (member : track ∈ timeline.tracks) (quantity : Observation Rat → Rat) :
    (timeline.hostChart quantity).find? track.name =
      some (track.onGrid.map fun observation =>
        { x := toMilliseconds observation.time, y := quantity observation }) := by
  obtain ⟨ascending, distinct⟩ := isAscending_exact built
  rw [Chart.find?, hostChart_eq ascending (isOnGrid_build built) distinct]
  exact lookup_map_of_mem (nodup_names_build built) member _

theorem states_areaUnder (built : Timeline.build window hosts = .ok timeline)
    (shows : timeline.ShowsAll hosts) (state : PowerState) :
    ∃ points, timeline.stateChart.find? state = some points ∧
      points.length = timeline.grid.points.length ∧
      (timeline.occupancies.map fun entry => entry.2.countedAs state).sum =
        timeline.grid.areaUnder points := by
  refine ⟨_, find?_stateChart built state, List.length_mapIdx, ?_⟩
  rw [areaUnder_hostsIn (isOnGrid_build built), occupancies, List.map_map]
  refine congrArg List.sum (List.map_congr_left fun track member => ?_)
  rw [shows.integral_eq built member fun _ _ => rfl]
  exact track.countedAs_occupancy state

theorem used_areaUnder (built : Timeline.build window hosts = .ok timeline)
    (shows : timeline.ShowsAll hosts) {track : Track Rat} (member : track ∈ timeline.tracks)
    {resource : Resource} {limit : Rat} {load : Load Rat}
    (done : track.load resource limit = .ok load) :
    ∃ points, (timeline.resourceCharts resource).used.find? track.name = some points ∧
      points.length = timeline.grid.points.length ∧
      load.area = timeline.grid.areaUnder points := by
  have onGrid := isOnGrid_build built track member
  have area : load.area = integral Observation.time (fun observation => observation.inUse resource)
      track.observations := Track.sum_load done .area
  refine ⟨_, find?_hostChart built member fun observation => observation.inUse resource, ?_, ?_⟩
  · rw [List.length_map, ← onGrid, List.length_map]
  · rw [areaUnder_hostSeries onGrid, area, shows.integral_eq built member]
    exact fun observation time => observation.inUse_moveTo time resource

/-- The areas under the charts are the times and the areas of the tables. -/
structure AreasAgree (timeline : Timeline Rat) (loads : List (String × HostLoad Rat))
    (hosts : HostMap (List (Observation Rat))) : Prop where
  states : ∀ state, ∃ points, timeline.stateChart.find? state = some points ∧
    points.length = timeline.grid.points.length ∧
    (timeline.occupancies.map fun entry => entry.2.countedAs state).sum =
      timeline.grid.areaUnder points
  resources : ∀ name ∈ hosts.names, ∃ load slots memory, loads.lookup name = some load ∧
    (timeline.resourceCharts .slots).used.find? name = some slots ∧
    (timeline.resourceCharts .memory).used.find? name = some memory ∧
    slots.length = timeline.grid.points.length ∧
    memory.length = timeline.grid.points.length ∧
    load.slots.area = timeline.grid.areaUnder slots ∧
    load.memory.area = timeline.grid.areaUnder memory

theorem areasAgree_build {loads : List (String × HostLoad Rat)}
    (built : Timeline.build window hosts = .ok timeline) (measured : timeline.loads = .ok loads)
    (shows : timeline.ShowsAll hosts) : timeline.AreasAgree loads hosts := by
  refine ⟨states_areaUnder built shows, fun name named => ?_⟩
  obtain ⟨observations, _, found⟩ := exists_track built named
  obtain ⟨load, looked, memoryDone, slotsDone⟩ :=
    lookup_loads (nodup_names_build built) measured found
  obtain ⟨memory, memoryDrawn, memoryLength, memoryArea⟩ :=
    used_areaUnder built shows found memoryDone
  obtain ⟨slots, slotsDrawn, slotsLength, slotsArea⟩ := used_areaUnder built shows found slotsDone
  exact ⟨load, slots, memory, looked, slotsDrawn, memoryDrawn, slotsLength, memoryLength,
    slotsArea, memoryArea⟩

def degrading : HostMap (List (Observation Rat)) :=
  HostMap.ofList [
    ("a", [
      { time := 0, state := .idle, slots := 4, slotsUsed := 0, memory := 8, memoryUsed := 0 },
      { time := 3 / 2, state := .used, slots := 4, slotsUsed := 2, memory := 8, memoryUsed := 1 / 3 },
      { time := 4, state := .onError, slots := 4, slotsUsed := 1, memory := 8, memoryUsed := 1 },
      { time := 6, state := .off, slots := 4, slotsUsed := 0, memory := 8, memoryUsed := 0 }]),
    ("b", [
      { time := 1, state := .idle, slots := 2, slotsUsed := 0, memory := 8, memoryUsed := 2 },
      { time := 5, state := .offError, slots := 2, slotsUsed := 0, memory := 8, memoryUsed := 0 }])]

theorem areasAgree_build_degrading : ∃ timeline loads,
    Timeline.build {} degrading = .ok timeline ∧ timeline.loads = .ok loads ∧
      timeline.ShowsAll degrading ∧ timeline.AreasAgree loads degrading := by
  have checked : (do
      let timeline ← (Timeline.build {} degrading).toOption
      let loads ← timeline.loads.toOption
      return decide (timeline.ShowsAll degrading)) = some true := by decide +kernel
  obtain ⟨timeline, made, checked⟩ := Option.bind_eq_some_iff.mp checked
  obtain ⟨loads, found, checked⟩ := Option.bind_eq_some_iff.mp checked
  have built := eq_ok_of_toOption made
  have measured := eq_ok_of_toOption found
  have shows : timeline.ShowsAll degrading := of_decide_eq_true (Option.some.inj checked)
  exact ⟨timeline, loads, built, measured, shows, areasAgree_build built measured shows⟩

end Timeline

end HostTimeline
