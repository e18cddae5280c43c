import HostTimeline.Proofs.Capacity
import HostTimeline.Proofs.ClippedSteps
import HostTimeline.Proofs.Clipping
import HostTimeline.Proofs.Document
import HostTimeline.Proofs.Figures
import HostTimeline.Proofs.Load
import HostTimeline.Proofs.Occupancy

/-!
The figures of a report with and without condensing.
-/

namespace HostTimeline

open Observation OrderedScalar

namespace Span

variable {α : Type} [Scalar α] [OrderedScalar α] {span : Span α}
  {observations : List (Observation α)}

theorem isComparable_clip (ordered : span.start ≤ span.stop)
    (comparable : ∀ observation ∈ observations, observation.IsComparable) :
    ∀ observation ∈ span.clip observations, observation.IsComparable := by
  obtain ⟨startComparable, stopComparable⟩ := le_self_of_le ordered
  have observedComparable : ∀ observation ∈ span.observed observations,
      observation.IsComparable := fun observation member =>
    comparable observation (mem_of_mem_observed member)
  have moved {observation : Observation α} (known : observation.IsComparable) {time : α}
      (timed : time ≤ time) : (observation.moveTo time).IsComparable :=
    ⟨timed, known.memory, known.memoryUsed⟩
  have endsComparable : ∀ time ∈ span.ends, time ≤ time := by
    intro time member
    rcases mem_ends member with rfl | rfl
    · exact startComparable
    · exact stopComparable
  cases events : span.observed observations with
  | nil =>
      rw [clip_of_none span events]
      intro observation member
      obtain ⟨time, found, rfl⟩ := List.mem_map.mp member
      exact ⟨endsComparable time found, zero_le_zero, zero_le_zero⟩
  | cons first rest =>
      rw [events] at observedComparable
      have here := observedComparable first List.mem_cons_self
      rcases List.eq_nil_or_concat rest with rfl | ⟨middle, last, rfl⟩
      · rw [clip_of_one span events]
        intro observation member
        obtain ⟨time, found, rfl⟩ := List.mem_map.mp member
        exact moved here (endsComparable time found)
      · rw [List.concat_eq_append] at events observedComparable
        rw [clip_of_two span events]
        intro observation member
        rcases List.mem_cons.mp member with rfl | later
        · exact moved here startComparable
        · rcases List.mem_append.mp later with inner | isLast
          · exact observedComparable observation
              (List.mem_cons_of_mem first (List.mem_append_left _ inner))
          · rw [List.mem_singleton.mp isLast]
            exact moved (observedComparable last (by simp)) stopComparable

end Span

/-- A host that goes through the same steps up to the same time. -/
structure Track.Retraces (left right : Track Float) : Prop where
  name : left.name = right.name
  steps : SameSteps left.observations right.observations
  comparable : ∀ observation ∈ left.observations, observation.IsComparable
  otherComparable : ∀ observation ∈ right.observations, observation.IsComparable
  stops : Option.Rel (fun time other => (time == other) = true)
    (left.observations.getLast?.map Observation.time)
    (right.observations.getLast?.map Observation.time)

namespace Track.Retraces

variable {left right : Track Float}

theorem occupancy (same : left.Retraces right) : left.occupancy.Matches right.occupancy :=
  Occupancy.matches_of_sameSteps PowerState.isAvailable same.comparable same.otherComparable
    same.steps same.stops

theorem capacity (same : left.Retraces right) (resource : Resource) :
    Scalar.Alike (left.capacity resource) (right.capacity resource) :=
  alike_capacity resource same.comparable same.otherComparable same.steps

theorem load (same : left.Retraces right) {limit other : Float}
    (limits : Scalar.Alike limit other) {resource : Resource} {load otherLoad : Load Float}
    (done : left.load resource limit = .ok load)
    (otherDone : right.load resource other = .ok otherLoad) : load = otherLoad :=
  Load.eq_of_sameSteps limits resource same.comparable same.otherComparable same.steps same.stops
    done otherDone

/-- A host is as without condensing if that retains its steps. -/
theorem build {grid other : TimeGrid Float} {observations : List (Observation Float)}
    (ordered : grid.span.start ≤ grid.span.stop) (same : grid.span.Matches other.span)
    (comparable : ∀ observation ∈ observations, observation.IsComparable)
    (retains : grid.span.RetainsSteps observations) (name : String) :
    (Track.build other name (Criteria.everyField.condense observations)).Retraces
      (Track.build grid name observations) := by
  have otherOrdered : other.span.start ≤ other.span.stop :=
    le_of_alike (.inr same.start) (.inr same.stop) ordered
  have retained : ∀ observation ∈ Criteria.everyField.condense observations,
      observation.IsComparable := fun observation member =>
    comparable observation (Criteria.mem_of_mem_condense member)
  refine
    { name := rfl
      steps := (Span.sameSteps_iff ordered same comparable).mpr retains
      comparable := Span.isComparable_clip otherOrdered retained
      otherComparable := Span.isComparable_clip ordered comparable
      stops := ?_ }
  obtain ⟨last, found, ends⟩ :=
    Span.getLast?_clip otherOrdered (Criteria.everyField.condense observations)
  obtain ⟨otherLast, otherFound, otherEnds⟩ := Span.getLast?_clip ordered observations
  unfold Track.build
  rw [found, otherFound]
  exact .some (beq_trans ends (beq_trans (beq_symm same.stop) (beq_symm otherEnds)))

end Track.Retraces

namespace Timeline

variable {left right : Timeline Float}

theorem alike_max (same : List.Forall₂ Track.Retraces left.tracks right.tracks)
    (resource : Resource) :
    Scalar.Alike (left.capacity resource).max (right.capacity resource).max := by
  unfold capacity
  simp only [List.map_map]
  refine alike_maxWithZero (List.rel_map ?_ same)
  exact fun _ _ retraces => retraces.capacity resource

theorem occupancies_matches (same : List.Forall₂ Track.Retraces left.tracks right.tracks) :
    List.Forall₂ (fun entry other => entry.1 = other.1 ∧ entry.2.Matches other.2)
      left.occupancies right.occupancies :=
  List.rel_map (fun _ _ retraces => ⟨retraces.name, retraces.occupancy⟩) same

theorem loads_eq (same : List.Forall₂ Track.Retraces left.tracks right.tracks)
    {loads otherLoads : List (String × HostLoad Float)} (done : left.loads = .ok loads)
    (otherDone : right.loads = .ok otherLoads) : loads = otherLoads := by
  refine mapM_ok_unique (same.imp ?_) done otherDone
  intro track other retraces entry otherEntry measured otherMeasured
  obtain ⟨load, loaded, measured⟩ := bind_ok measured
  obtain ⟨otherLoad, otherLoaded, otherMeasured⟩ := bind_ok otherMeasured
  cases measured
  cases otherMeasured
  obtain ⟨memory, slots⟩ := hostLoad_ok loaded
  obtain ⟨otherMemory, otherSlots⟩ := hostLoad_ok otherLoaded
  have sameMemory := retraces.load (alike_max same .memory) memory otherMemory
  have sameSlots := retraces.load (alike_max same .slots) slots otherSlots
  have whole : load = otherLoad := by
    cases load
    cases otherLoad
    exact congr (congrArg HostLoad.mk sameMemory) sameSlots
  rw [retraces.name, whole]

/-- The hosts go through the same steps in two timelines. -/
def SameSteps (left right : Timeline Float) : Prop :=
  List.Forall₂ (fun track other => Observation.SameSteps track.observations other.observations)
    left.tracks right.tracks

variable {hosts : HostMap (List (Observation Float))} {window other : Window Float}
  {plain condensed : Timeline Float}

/-- The hosts of a timeline and of that of the condensed observations, side by side. -/
theorem forall₂_tracks_condense (related : Track Float → Track Float → Prop)
    (plainBuilt : Timeline.build window hosts = .ok plain)
    (condensedBuilt : Timeline.build other
      (hosts.map fun _ observations => Criteria.everyField.condense observations) = .ok condensed) :
    List.Forall₂ related condensed.tracks plain.tracks ↔ ∀ entry ∈ hosts.sorted,
      related
        (Track.build condensed.grid entry.1 (Criteria.everyField.condense entry.2))
        (Track.build plain.grid entry.1 entry.2) := by
  rw [(build_eq plainBuilt).2, (build_eq condensedBuilt).2, HostMap.sorted_map, List.map_map,
    List.forall₂_map_left_iff, List.forall₂_map_right_iff, List.forall₂_same]
  rfl

end Timeline

/-- Every host has the same stays and the same load in two reports. -/
structure Report.SameFigures (left right : Report Float) : Prop where
  occupancies : List.Forall₂ (fun entry other => entry.1 = other.1 ∧ entry.2.Matches other.2)
    left.occupancies right.occupancies
  loads : left.loads = right.loads

theorem Report.statistics_condense {text : List UInt8} {document : Document Float}
    {window : Window Float} {plain condensed : Report Float}
    (read : Document.read text = .ok document)
    (plainBuilt : Report.build document window none = .ok plain)
    (condensedBuilt : Report.build document window (some .everyField) = .ok condensed)
    (sameSpan : plain.timeline.grid.span.Matches condensed.timeline.grid.span) :
    ((∀ observations ∈ document.hosts.values,
        plain.timeline.grid.span.RetainsSteps observations) ↔
      condensed.timeline.SameSteps plain.timeline) ∧
    ((∀ observations ∈ document.hosts.values,
        plain.timeline.grid.span.RetainsSteps observations) →
      condensed.SameFigures plain) := by
  obtain ⟨plainTimeline, _, plainOccupancies, plainLoads⟩ := Report.build_eq plainBuilt
  obtain ⟨condensedTimeline, _, condensedOccupancies, condensedLoads⟩ :=
    Report.build_eq condensedBuilt
  rw [Document.condense_everyField] at condensedTimeline
  have comparable : ∀ entry ∈ document.hosts.sorted, ∀ observation ∈ entry.2,
      observation.IsComparable :=
    (document.hosts.forall_sorted_iff _).mpr fun observations member observation found =>
      ((Document.isFinite_read read).observations observations member observation found).isComparable
  have ordered : plain.timeline.grid.span.start ≤ plain.timeline.grid.span.stop :=
    TimeGrid.start_le_stop_build (Timeline.build_eq plainTimeline).1
      (le_self_of_le (le_of_beq sameSpan.start)).1 (le_self_of_le (le_of_beq sameSpan.stop)).1
  have retained : (∀ observations ∈ document.hosts.values,
        plain.timeline.grid.span.RetainsSteps observations) ↔
      condensed.timeline.SameSteps plain.timeline := by
    unfold Timeline.SameSteps
    rw [Timeline.forall₂_tracks_condense _ plainTimeline condensedTimeline,
      ← document.hosts.forall_sorted_iff]
    refine forall₂_congr fun entry member => ?_
    exact (Span.sameSteps_iff ordered sameSpan (comparable entry member)).symm
  refine ⟨retained, fun retains => ?_⟩
  have retraces : List.Forall₂ Track.Retraces condensed.timeline.tracks plain.timeline.tracks := by
    rw [Timeline.forall₂_tracks_condense _ plainTimeline condensedTimeline]
    intro entry member
    exact .build ordered sameSpan (comparable entry member)
      ((document.hosts.forall_sorted_iff _).mpr retains entry member) entry.1
  constructor
  · rw [plainOccupancies, condensedOccupancies]
    exact Timeline.occupancies_matches retraces
  · exact Timeline.loads_eq retraces condensedLoads plainLoads

/-- Both reports of one text, if there are both and they are as `expected`. -/
theorem Report.exists_both_of_text (text : List UInt8)
    (expected : Document Float → Report Float → Report Float → Prop)
    [∀ document plain condensed, Decidable (expected document plain condensed)]
    (checked : (do
      let document ← (Document.read text).toOption
      let plain ← (Report.build document {} none).toOption
      let condensed ← (Report.build document {} (some .everyField)).toOption
      return decide (expected document plain condensed)) = some true) :
    ∃ document plain condensed, Document.read text = .ok document ∧
      Report.build document {} none = .ok plain ∧
      Report.build document {} (some .everyField) = .ok condensed ∧
      expected document plain condensed := by
  obtain ⟨document, read, checked⟩ := Option.bind_eq_some_iff.mp checked
  obtain ⟨plain, plainBuilt, checked⟩ := Option.bind_eq_some_iff.mp checked
  obtain ⟨condensed, condensedBuilt, checked⟩ := Option.bind_eq_some_iff.mp checked
  exact ⟨document, plain, condensed, eq_ok_of_toOption read, eq_ok_of_toOption plainBuilt,
    eq_ok_of_toOption condensedBuilt, of_decide_eq_true (Option.some.inj checked)⟩

/-- What a host with four slots reports. -/
def Document.reported (time state used : String) : String :=
  "\x7b\"t\":" ++ time ++ ",\"state\":" ++ state ++ ",\"slots\":4,\"slots_used\":" ++ used ++
    ",\"memory\":1024,\"memory_used\":" ++ used ++ "\x7d"

/-- A document of two hosts that are idle at first and used at last.  One of them also reports
halfway. -/
def Document.halfway (state used : String) : List UInt8 :=
  ("\x7b\"hostevents\":\x7b\"a\":[" ++ reported "0" "0" "0" ++ "," ++
    reported "50" state used ++ "," ++ reported "100" "1" "2" ++ "],\"b\":[" ++
    reported "0" "0" "0" ++ "," ++ reported "100" "1" "2" ++ "]\x7d\x7d").toUTF8.toList

/-- Idle again halfway, which is dropped. -/
theorem Report.statistics_condense_idle : ∃ document plain condensed,
    Document.read (Document.halfway "0" "0") = .ok document ∧
      Report.build document {} none = .ok plain ∧
      Report.build document {} (some .everyField) = .ok condensed ∧
      plain.timeline.grid.span.Matches condensed.timeline.grid.span ∧ condensed.dropped = 1 ∧
      (∀ observations ∈ document.hosts.values,
        plain.timeline.grid.span.RetainsSteps observations) ∧
      condensed.timeline.SameSteps plain.timeline ∧ condensed.SameFigures plain := by
  obtain ⟨document, plain, condensed, read, built, condensedBuilt, same, dropped, retains⟩ :=
    Report.exists_both_of_text (Document.halfway "0" "0") (fun document plain condensed =>
      plain.timeline.grid.span.Matches condensed.timeline.grid.span ∧ condensed.dropped = 1 ∧
        ∀ observations ∈ document.hosts.values,
          plain.timeline.grid.span.RetainsSteps observations)
      (by decide +kernel)
  obtain ⟨steps, statistics⟩ := Report.statistics_condense read built condensedBuilt same
  exact ⟨document, plain, condensed, read, built, condensedBuilt, same, dropped, retains,
    steps.mp retains, statistics retains⟩

/-- Used from halfway on.  The last report is dropped, and the one halfway is moved to the end. -/
theorem Report.exists_statistics_condense_ne : ∃ document plain condensed,
    Document.read (Document.halfway "1" "2") = .ok document ∧
      Report.build document {} none = .ok plain ∧
      Report.build document {} (some .everyField) = .ok condensed ∧
      plain.timeline.grid.span.Matches condensed.timeline.grid.span ∧
      ¬ List.Forall₂ (fun entry other => entry.1 = other.1 ∧ entry.2.Matches other.2)
        condensed.occupancies plain.occupancies ∧
      condensed.loads ≠ plain.loads := by
  obtain ⟨document, plain, condensed, read, built, condensedBuilt, same, times, areas⟩ :=
    Report.exists_both_of_text (Document.halfway "1" "2") (fun _ plain condensed =>
      plain.timeline.grid.span.Matches condensed.timeline.grid.span ∧
        condensed.occupancies.map (fun entry => (entry.2.inState .idle).duration.toBits) ≠
          plain.occupancies.map (fun entry => (entry.2.inState .idle).duration.toBits) ∧
        condensed.loads.map (fun entry => entry.2.slots.area.toBits) ≠
          plain.loads.map (fun entry => entry.2.slots.area.toBits))
      (by decide +kernel)
  refine ⟨document, plain, condensed, read, built, condensedBuilt, same, fun matched => times ?_,
    fun equal => areas (by rw [equal])⟩
  refine List.forall₂_eq_eq_eq ▸ List.rel_map ?_ matched
  intro entry other both
  simp only [both.2.inState]

end HostTimeline
