import HostTimeline.Listing.Resources
import HostTimeline.Proofs.Document
import HostTimeline.Proofs.Timeline

/-!
The listings that follow the grid.  They read the charts by position, so their rows show the
hosts at the grid points exactly if no two grid points come to lie at one position on a chart;
if two do, the listing of states lacks values.
-/

namespace HostTimeline

namespace Listing

/-- A grid point, and the number of hosts in each state there. -/
def StateRow.atPoint (timeline : Timeline Float) (index : Nat) (time : Float) : StateRow where
  time := time
  hosts state := some (Float.ofInt
    (Timeline.hostsIn (timeline.tracks.map fun track => track.onGrid.toArray) state index))

/-- What a host offers and uses at one of its observations. -/
def ResourceRow.ofObservation (resource : Resource) (host : String)
    (observation : Observation Float) : ResourceRow where
  host := host
  time := observation.time
  offered := Timeline.offeredNow resource observation
  used := observation.inUse resource

/-- The number that a row shows for a state is that of the series at the row's position. -/
theorem StateRow.hosts_eq {series : PowerState → List (Point Float)} (index : Nat)
    (state : PowerState) :
    (do
      let points ← ((PowerState.all.map fun state => (state, series state)).map fun entry =>
        (entry.1, entry.2.toArray)).lookup state
      let point ← points[index]?
      return point.y : Option Float) = (series state)[index]?.map Point.y := by
  rw [List.map_map]
  change (do
    let points ← (PowerState.all.map fun state => (state, (series state).toArray)).lookup state
    let point ← points[index]?
    return point.y : Option Float) = _
  rw [lookup_all]
  change (((series state).toArray)[index]?.bind fun point => some point.y) = _
  rw [List.getElem?_toArray, Option.map_eq_bind]
  rfl

theorem StateRow.ofReport_eq {report : Report Float}
    (series : report.stateChart.series = report.timeline.stateCounts) :
    StateRow.ofReport report =
      report.timeline.grid.points.mapIdx (StateRow.atPoint report.timeline) := by
  unfold StateRow.ofReport
  rw [series]
  refine List.ext_getElem? fun index => ?_
  rw [List.getElem?_mapIdx, List.getElem?_mapIdx]
  cases found : report.timeline.grid.points[index]? with
  | none => rfl
  | some time =>
      refine congrArg some ?_
      change StateRow.mk time _ = StateRow.mk time _
      congr 1
      funext state
      refine (StateRow.hosts_eq index state).trans ?_
      rw [List.getElem?_mapIdx, found]
      rfl

/-- If every series is shorter than the grid, none has a value for the last grid point. -/
theorem StateRow.exists_missing {report : Report Float}
    (drawn : report.stateChart = report.timeline.stateChart)
    (short : ∀ entry ∈ report.stateChart.series,
      entry.2.length < report.timeline.grid.points.length) :
    ∃ row ∈ StateRow.ofReport report, ∀ state, row.hosts state = none := by
  obtain ⟨series, shape⟩ := report.timeline.stateChart_exists
  rw [drawn, shape] at short
  have shorter (state : PowerState) :
      (series state).length < report.timeline.grid.points.length :=
    short _ (List.mem_map_of_mem (PowerState.mem_all state))
  have positive := Nat.lt_of_le_of_lt (Nat.zero_le _) (shorter .error)
  let last := report.timeline.grid.points.length - 1
  have inside : last < report.timeline.grid.points.length := by omega
  unfold StateRow.ofReport
  refine ⟨_, List.mem_mapIdx.mpr ⟨last, inside, rfl⟩, fun state => ?_⟩
  rw [drawn, shape]
  refine (StateRow.hosts_eq last state).trans ?_
  have length := shorter state
  rw [List.getElem?_eq_none (by omega)]
  rfl

/-- The only error of a cell is that the chart has no value for it. -/
theorem StateRow.cell_error {column : Table.Column StateRow} {row : StateRow} {reason : TableError}
    (member : column ∈ states.columns) (failed : column.cell row = .error reason) :
    reason = .valueMissing column.name ∧ ∃ state, row.hosts state = none := by
  have hosts {name : String} {state : PowerState}
      (failed : (StateRow.hostsColumn name state).cell row = .error reason) :
      reason = .valueMissing name ∧ ∃ state, row.hosts state = none := by
    unfold StateRow.hostsColumn at failed
    cases found : row.hosts state with
    | none =>
        simp only [found, Except.error.injEq] at failed
        exact ⟨failed.symm, state, found⟩
    | some count => simp [found] at failed
  simp only [states, List.mem_cons, List.not_mem_nil, or_false] at member
  rcases member with rfl | rfl | rfl | rfl | rfl | rfl | rfl | rfl | rfl
  · cases failed
  · cases failed
  all_goals exact hosts failed

theorem exists_of_rows_error {columns : List (Table.Column StateRow)} {rows : List StateRow}
    {reason : TableError} (known : ∀ column ∈ columns, column ∈ states.columns)
    (failed : rows.mapM (Table.rowCells columns) = .error reason) :
    (∃ name, reason = .valueMissing name) ∧ ∃ row ∈ rows, ∃ state, row.hosts state = none := by
  obtain ⟨row, rowMember, rowFailed⟩ := mapM_error failed
  obtain ⟨column, member, cellFailed⟩ := mapM_error rowFailed
  obtain ⟨told, missing⟩ := StateRow.cell_error (known column member) cellFailed
  exact ⟨⟨column.name, told⟩, row, rowMember, missing⟩

theorem mem_of_findColumn {ρ : Type} {columns : List (Table.Column ρ)} {name : String}
    {column : Table.Column ρ} (found : Table.findColumn columns name = .ok column) :
    column ∈ columns := by
  unfold Table.findColumn at found
  split at found
  next other chosen =>
    cases found
    exact List.mem_of_find?_eq_some chosen
  · cases found

/-- Whatever is selected, a listing of states that lacks no number is complete. -/
theorem exists_missing_of_render {format : Option String} {rows : List StateRow} {name : String}
    (failed : states.render format rows = .error (.valueMissing name)) :
    ∃ row ∈ rows, ∃ state, row.hosts state = none := by
  unfold Listing.render at failed
  rcases bind_error failed with refused | ⟨selection, _, failed⟩
  · unfold Table.select at refused
    simp only at refused
    split at refused <;> cases refused
  · unfold Table.render at failed
    rcases bind_error failed with unknown | ⟨columns, selected, failed⟩
    · obtain ⟨field, _, unknown⟩ := mapM_error unknown
      unfold Table.findColumn at unknown
      split at unknown <;> cases unknown
    · rcases bind_error failed with missing | ⟨cells, _, failed⟩
      · refine (exists_of_rows_error ?_ missing).2
        intro column member
        obtain ⟨field, _, found⟩ := exists_of_mem_mapM selected member
        exact mem_of_findColumn found
      · cases failed

/-- The columns that are selected by default. -/
def defaultColumns : List (Table.Column StateRow) := [
  .always "datetime" fun row => momentCell row.time,
  StateRow.hostsColumn "used" .used,
  StateRow.hostsColumn "idle" .idle,
  StateRow.hostsColumn "poweringoff" .poweringOff,
  StateRow.hostsColumn "poweringon" .poweringOn,
  StateRow.hostsColumn "unknown" .unknown,
  StateRow.hostsColumn "error" .error]

/-- A listing of states with the default fields fails on a row that lacks the numbers. -/
theorem render_of_missing {rows : List StateRow} {row : StateRow} (member : row ∈ rows)
    (missing : ∀ state, row.hosts state = none) :
    ∃ name, states.render none rows = .error (.valueMissing name) := by
  let fields := ["datetime", "used", "idle", "poweringoff", "poweringon", "unknown", "error"]
  have selection : Table.select states.columns states.aliases states.defaults =
      .ok { fields, others := [] } := rfl
  have columns : fields.mapM (Table.findColumn states.columns) = .ok defaultColumns := rfl
  have known : ∀ column ∈ defaultColumns, column ∈ states.columns := by
    intro column found
    obtain ⟨field, _, chosen⟩ := exists_of_mem_mapM columns found
    exact mem_of_findColumn chosen
  cases cells : rows.mapM (Table.rowCells defaultColumns) with
  | ok values =>
      obtain ⟨shown, _, rowShown⟩ := mapM_ok cells member
      have used : StateRow.hostsColumn "used" .used ∈ defaultColumns := by
        simp [defaultColumns]
      obtain ⟨cell, _, cellShown⟩ := mapM_ok rowShown used
      simp [StateRow.hostsColumn, missing] at cellShown
  | error reason =>
      obtain ⟨⟨name, told⟩, _⟩ := exists_of_rows_error known cells
      refine ⟨name, ?_⟩
      unfold Listing.render Table.render
      rw [Option.getD_none, selection]
      change (fields.mapM (Table.findColumn states.columns) >>= fun selected =>
        rows.mapM (Table.rowCells selected) >>= fun cells =>
          (pure (String.ofList (Table.renderCells fields _ cells)) :
            Except TableError String)) = _
      rw [columns]
      change (rows.mapM (Table.rowCells defaultColumns) >>= _) = _
      rw [cells, told]
      rfl

theorem ResourceRow.valueAt_map {observations : List (Observation Float)} {index : Nat}
    {observation : Observation Float} (found : observations[index]? = some observation)
    (draw : Observation Float → Point Float) :
    valueAt (observations.map draw).toArray index = (draw observation).y := by
  unfold valueAt
  rw [List.getElem?_toArray, List.getElem?_map, found]
  rfl

theorem ResourceRow.ofReport_eq {report : Report Float} (resource : Resource)
    (onGrid : report.timeline.IsOnGrid) (distinct : (report.timeline.tracks.map Track.name).Nodup)
    (offered : (report.timeline.resourceCharts resource).offered.series =
      report.timeline.hostSeries (Timeline.offeredNow resource))
    (used : (report.timeline.resourceCharts resource).used.series =
      report.timeline.hostSeries fun observation => observation.inUse resource) :
    ResourceRow.ofReport resource report = report.timeline.tracks.flatMap fun track =>
      track.onGrid.map (ResourceRow.ofObservation resource track.name) := by
  unfold ResourceRow.ofReport
  simp only [used]
  unfold Timeline.hostSeries
  rw [List.flatMap_map]
  refine List.flatMap_congr fun track member => ?_
  have found : (report.timeline.resourceCharts resource).offered.find? track.name =
      some (track.onGrid.map fun observation =>
        { x := toMilliseconds observation.time
          y := Timeline.offeredNow resource observation }) := by
    unfold Chart.find?
    rw [offered]
    exact lookup_map_of_mem distinct member _
  simp only [found, Option.getD_some]
  rw [← onGrid track member]
  refine List.ext_getElem? fun index => ?_
  rw [List.getElem?_mapIdx, List.getElem?_map, List.getElem?_map]
  cases shown : track.onGrid[index]? with
  | none => rfl
  | some observation =>
      simp only [Option.map_some, ResourceRow.valueAt_map shown]
      rfl

end Listing

/-- The listings that follow the grid show the hosts as they are at its points. -/
structure Report.ShowsGrid (report : Report Float) : Prop where
  states : Listing.StateRow.ofReport report =
    report.timeline.grid.points.mapIdx (Listing.StateRow.atPoint report.timeline)
  resources : ∀ resource, Listing.ResourceRow.ofReport resource report =
    report.timeline.tracks.flatMap fun track =>
      track.onGrid.map (Listing.ResourceRow.ofObservation resource track.name)

/-- Whatever fields are selected, the listing of states lacks no value. -/
def Report.ListsStates (report : Report Float) : Prop :=
  ∀ format name, Listing.states.render format (Listing.StateRow.ofReport report) ≠
    .error (.valueMissing name)

theorem Report.showsGrid_of_distinct {report : Report Float}
    (drawn : report.stateChart = report.timeline.stateChart)
    (ascending : report.timeline.IsAscending) (onGrid : report.timeline.IsOnGrid)
    (names : (report.timeline.tracks.map Track.name).Nodup)
    (distinct : report.timeline.HasDistinctPositions) : report.ShowsGrid := by
  constructor
  · exact Listing.StateRow.ofReport_eq (drawn ▸ Timeline.stateChart_eq ascending distinct)
  · intro resource
    exact Listing.ResourceRow.ofReport_eq resource onGrid names
      (Timeline.hostChart_eq ascending onGrid distinct _)
      (Timeline.hostChart_eq ascending onGrid distinct _)

theorem Report.ShowsGrid.listsStates {report : Report Float} (shows : report.ShowsGrid) :
    report.ListsStates := by
  intro format name failed
  obtain ⟨row, member, state, missing⟩ := Listing.exists_missing_of_render failed
  rw [shows.states] at member
  obtain ⟨index, _, rfl⟩ := List.mem_mapIdx.mp member
  cases missing

theorem Report.ListsStates.distinct {report : Report Float} (lists : report.ListsStates)
    (drawn : report.stateChart = report.timeline.stateChart)
    (ascending : report.timeline.IsAscending) : report.timeline.HasDistinctPositions := by
  by_contra shared
  obtain ⟨row, member, missing⟩ := Listing.StateRow.exists_missing drawn
    (drawn ▸ fun entry => Timeline.length_stateChart_lt ascending shared)
  obtain ⟨name, failed⟩ := Listing.render_of_missing member missing
  exact lists none name failed

theorem Report.isAligned_iff_distinct {text : List UInt8} {document : Document Float}
    {window : Window Float} {criteria : Option Criteria} {report : Report Float}
    (read : Document.read text = .ok document) (windowFinite : window.IsFinite)
    (built : Report.build document window criteria = .ok report) :
    (report.timeline.IsAligned ↔ report.timeline.HasDistinctPositions) ∧
      (report.ShowsGrid ↔ report.timeline.HasDistinctPositions) ∧
      (report.ListsStates ↔ report.timeline.HasDistinctPositions) := by
  obtain ⟨timelineBuilt, drawn, _, _⟩ := Report.build_eq built
  have documentFinite := Document.isFinite_read read
  have condensedFinite := documentFinite.condense criteria
  have ascending := Timeline.isAscending_build (documentFinite.window.override windowFinite)
    (fun observations hostMember observation member =>
      (condensedFinite.observations observations hostMember observation member).time)
    timelineBuilt
  have onGrid := Timeline.isOnGrid_build timelineBuilt
  have names := Timeline.nodup_names_build timelineBuilt
  have shown := Report.showsGrid_of_distinct drawn ascending onGrid names
  refine ⟨Timeline.isAligned_iff ascending onGrid, ⟨fun shows => ?_, shown⟩,
    ⟨fun lists => lists.distinct drawn ascending, fun distinct => (shown distinct).listsStates⟩⟩
  exact shows.listsStates.distinct drawn ascending

instance (timeline : Timeline Float) : Decidable timeline.HasDistinctPositions :=
  inferInstanceAs (Decidable (List.Pairwise _ _))

/-- A document of one host that is idle at one time and used at another. -/
def Document.twoTimes (idle used : String) : List UInt8 :=
  ("\x7b\"hostevents\":\x7b\"wn1\":[" ++
    "\x7b\"t\":" ++ idle ++ ",\"state\":0,\"slots\":4,\"slots_used\":0," ++
      "\"memory\":1024,\"memory_used\":0\x7d," ++
    "\x7b\"t\":" ++ used ++ ",\"state\":1,\"slots\":4,\"slots_used\":2," ++
      "\"memory\":1024,\"memory_used\":512\x7d]\x7d\x7d").toUTF8.toList

theorem Report.isAligned_two_times : ∃ document report,
    Document.read (Document.twoTimes "1700000000" "1700000060") = .ok document ∧
      Report.build document {} none = .ok report ∧ report.timeline.grid.points.length = 2 ∧
      report.timeline.IsAligned ∧ report.ShowsGrid ∧ report.ListsStates := by
  let text := Document.twoTimes "1700000000" "1700000060"
  have checked : (Report.ofText? text none).any (fun found =>
      decide (found.2.timeline.grid.points.length = 2) &&
        decide found.2.timeline.HasDistinctPositions) = true := by
    decide +kernel
  obtain ⟨⟨document, report⟩, found, test⟩ := (Option.any_eq_true _ _).mp checked
  obtain ⟨read, built⟩ := Report.built_of_ofText? found
  simp only [Bool.and_eq_true, decide_eq_true_eq] at test
  have windowFinite : Window.IsFinite {} := ⟨by simp, by simp⟩
  obtain ⟨aligned, shown, listed⟩ := Report.isAligned_iff_distinct read windowFinite built
  exact ⟨document, report, read, built, test.1, aligned.mpr test.2, shown.mpr test.2,
    listed.mpr test.2⟩

/-- Two times next to each other that come to lie at one position. -/
theorem Report.exists_not_isAligned : ∃ document report name,
    Document.read (Document.twoTimes "1700000000.000005" "1700000000.0000052") = .ok document ∧
      Report.build document {} none = .ok report ∧ ¬ report.timeline.IsAligned ∧
      Listing.states.render none (Listing.StateRow.ofReport report) =
        .error (.valueMissing name) := by
  let text := Document.twoTimes "1700000000.000005" "1700000000.0000052"
  have checked : (Report.ofText? text none).any (fun found =>
      (found.2.timeline.stateChart.series.any fun entry =>
        entry.2.length != found.2.timeline.positions.length) &&
      (match Listing.states.render none (Listing.StateRow.ofReport found.2) with
        | .error (.valueMissing _) => true
        | _ => false)) = true := by
    decide +kernel
  obtain ⟨⟨document, report⟩, found, test⟩ := (Option.any_eq_true _ _).mp checked
  obtain ⟨read, built⟩ := Report.built_of_ofText? found
  obtain ⟨short, missing⟩ := Bool.and_eq_true_iff.mp test
  obtain ⟨entry, member, short⟩ := List.any_eq_true.mp short
  split at missing
  next name failed =>
    refine ⟨document, report, name, read, built, fun aligned => ?_, failed⟩
    have whole := congrArg List.length (aligned.states entry member)
    rw [List.length_map] at whole
    simp [whole] at short
  · cases missing

end HostTimeline
