import HostTimeline.Proofs.Area
import HostTimeline.Proofs.Clipping
import HostTimeline.Proofs.Document
import HostTimeline.Proofs.Durations
import HostTimeline.Proofs.Figures

/-!
The two tables of a report against its span, in exact arithmetic.  The stays of every host cover
the span, and its loads are measured over the time that it is available.
-/

namespace HostTimeline

namespace Span

variable {span : Span Rat}

theorem clip_ends (ordered : span.start ≤ span.stop) (observations : List (Observation Rat)) :
    ∃ first last, (span.clip observations).head? = some first ∧ first.time = span.start ∧
      (span.clip observations).getLast? = some last ∧ last.time = span.stop := by
  obtain ⟨first, rest, clipped, start⟩ := span.clip_exists observations
  obtain ⟨last, tail, stop⟩ := getLast?_clip ordered observations
  exact ⟨first, last, by rw [clipped, List.head?_cons], start, tail, eq_of_beq stop⟩

end Span

namespace Track

variable {grid : TimeGrid Rat}

theorem covers_occupancy (ordered : grid.span.start ≤ grid.span.stop) (name : String)
    (observations : List (Observation Rat)) :
    (Track.build grid name observations).occupancy.Covers grid.span := by
  obtain ⟨first, last, head, start, tail, stop⟩ := Span.clip_ends ordered observations
  exact Occupancy.covers_ofObservations rfl (Span.clip_ascends ordered observations) head tail
    start stop

theorem acceptedTime_eq {track : Track Rat} {resource : Resource} {limit : Rat} {load : Load Rat}
    (done : track.load resource limit = .ok load) :
    load.acceptedTime = track.occupancy.available := by
  have measured : load.acceptedTime = integral Observation.time
      (fun observation => if observation.state.isAvailable then 1 else 0) track.observations :=
    sum_load done .acceptedTime
  have stayed : track.occupancy.available = integral Observation.time
      (fun observation => if observation.state.isAvailable then 1 else 0) track.observations :=
    Occupancy.sum_ofObservations PowerState.isAvailable track.observations .available
  rw [measured, stayed]

end Track

theorem TimeGrid.start_le_stop_of_build {window : Window Rat} {times : List Rat}
    {grid : TimeGrid Rat} (built : TimeGrid.build window times = .ok grid) :
    grid.span.start ≤ grid.span.stop :=
  start_le_stop_build built le_rfl le_rfl

theorem Document.names_condense {α : Type} [Scalar α] (document : Document α)
    (criteria : Option Criteria) :
    (document.condense criteria).1.hosts.names = document.hosts.names := by
  cases criteria with
  | none => rfl
  | some criteria => simp [condense, condenseHosts, HostMap.names, HostMap.map]

theorem Report.build_covers {document : Document Rat} {window : Window Rat}
    {criteria : Option Criteria} {report : Report Rat}
    (built : Report.build document window criteria = .ok report) {name : String}
    (member : name ∈ document.hosts.names) : ∃ occupancy load,
      report.occupancies.lookup name = some occupancy ∧ report.loads.lookup name = some load ∧
      occupancy.Covers report.timeline.grid.span ∧
      load.memory.acceptedTime = occupancy.available ∧
      load.slots.acceptedTime = occupancy.available := by
  obtain ⟨timelineBuilt, _, occupancies, loads⟩ := Report.build_eq built
  rw [← document.names_condense criteria] at member
  obtain ⟨observations, _, found⟩ := Timeline.exists_track timelineBuilt member
  have named := Timeline.nodup_names_build timelineBuilt
  have ordered := TimeGrid.start_le_stop_of_build (Timeline.build_eq timelineBuilt).1
  obtain ⟨load, looked, memory, slots⟩ := Timeline.lookup_loads named loads found
  refine ⟨_, load, ?_, looked, Track.covers_occupancy ordered name observations,
    Track.acceptedTime_eq memory, Track.acceptedTime_eq slots⟩
  rw [occupancies]
  exact Timeline.lookup_occupancies named found

/-- A host that is used for half of the time and then off, and one that was seen once. -/
def Document.halfOff : Document Rat where
  hosts := HostMap.ofList [
    ("a", [
      { time := 0, state := .idle, slots := 4, slotsUsed := 0, memory := 8, memoryUsed := 0 },
      { time := 1, state := .used, slots := 4, slotsUsed := 2, memory := 8, memoryUsed := 1 / 3 },
      { time := 3, state := .off, slots := 4, slotsUsed := 0, memory := 8, memoryUsed := 0 },
      { time := 6, state := .off, slots := 4, slotsUsed := 0, memory := 8, memoryUsed := 0 }]),
    ("b", [
      { time := 2, state := .idle, slots := 2, slotsUsed := 0, memory := 8, memoryUsed := 0 }])]
  window := {}

theorem Report.build_covers_half_off : ∃ report occupancy load,
    Report.build Document.halfOff {} none = .ok report ∧
      report.occupancies.lookup "a" = some occupancy ∧ report.loads.lookup "a" = some load ∧
      occupancy.Covers report.timeline.grid.span ∧
      load.memory.acceptedTime = occupancy.available ∧
      load.slots.acceptedTime = occupancy.available := by
  obtain ⟨report, found⟩ := Option.isSome_iff_exists.mp
    (by decide +kernel : (Report.build Document.halfOff {} none).toOption.isSome = true)
  have built := eq_ok_of_toOption found
  have named : "a" ∈ Document.halfOff.hosts.names := by decide +kernel
  obtain ⟨occupancy, load, covered⟩ := Report.build_covers built named
  exact ⟨report, occupancy, load, built, covered⟩

end HostTimeline
