import HostTimeline.Document.Decoding
import HostTimeline.Report.Basic
import HostTimeline.Proofs.Condense
import HostTimeline.Proofs.Except
import HostTimeline.Proofs.HostMap
import HostTimeline.Proofs.Number.Finite
import HostTimeline.Proofs.TimeGrid

/-!
Documents that are read have finite numbers only (`Document.isFinite_read`), and so have
the times that condensing leaves of them (`Document.IsFinite.condense`).
-/

namespace HostTimeline

structure Observation.IsFinite (observation : Observation Float) : Prop where
  time : observation.time.isFinite = true
  memory : observation.memory.isFinite = true
  memoryUsed : observation.memoryUsed.isFinite = true

theorem Observation.IsFinite.isComparable {observation : Observation Float}
    (finite : observation.IsFinite) : observation.IsComparable where
  time := Binary64.le_self_of_isFinite finite.time
  memory := Binary64.le_self_of_isFinite finite.memory
  memoryUsed := Binary64.le_self_of_isFinite finite.memoryUsed

structure Document.IsFinite (document : Document Float) : Prop where
  observations : ∀ observations ∈ document.hosts.values, ∀ observation ∈ observations,
    observation.IsFinite
  window : document.window.IsFinite

namespace Decoding

theorem isFinite_number? {members : Members} {name : String} {value : Float}
    (read : number? members name = .ok (some value)) : value.isFinite = true := by
  unfold number? at read
  split at read
  · cases read
  · cases read
  next numeral _ =>
    split at read
    next finite =>
      cases read
      exact finite
    · cases read
  · cases read

theorem isFinite_number {members : Members} {name : String} {value : Float}
    (read : number members name = .ok value) : value.isFinite = true := by
  unfold number at read
  obtain ⟨found, numbered, read⟩ := bind_ok read
  cases found with
  | none => cases read
  | some found =>
      cases read
      exact isFinite_number? numbered

theorem isFinite_observation {value : Json.Value} {result : Observation Float}
    (read : observation value = .ok result) : result.IsFinite := by
  unfold observation at read
  split at read
  · obtain ⟨time, timed, read⟩ := bind_ok read
    obtain ⟨state, _, read⟩ := bind_ok read
    obtain ⟨slots, _, read⟩ := bind_ok read
    obtain ⟨slotsUsed, _, read⟩ := bind_ok read
    obtain ⟨memory, offered, read⟩ := bind_ok read
    obtain ⟨memoryUsed, used, read⟩ := bind_ok read
    cases read
    exact
      { time := isFinite_number (mapError_ok timed)
        memory := isFinite_number (mapError_ok offered)
        memoryUsed := isFinite_number (mapError_ok used) }
  · cases read

theorem isFinite_observations {name : String} {index : Nat} {values : List Json.Value}
    {results : List (Observation Float)} (read : observations name index values = .ok results) :
    ∀ result ∈ results, result.IsFinite := by
  induction values generalizing index results with
  | nil =>
      cases read
      intro result member
      cases member
  | cons value rest ih =>
      obtain ⟨first, taken, read⟩ := bind_ok read
      obtain ⟨others, later, read⟩ := bind_ok read
      cases read
      intro result member
      rcases List.mem_cons.mp member with same | member
      · exact same ▸ isFinite_observation (mapError_ok taken)
      · exact ih later result member

theorem isFinite_host {name : String} {value : Json.Value} {results : List (Observation Float)}
    (read : host name value = .ok results) : ∀ result ∈ results, result.IsFinite := by
  unfold host at read
  split at read
  · exact isFinite_observations read
  · cases read

theorem isFinite_hosts {members : Members} {results : List (String × List (Observation Float))}
    (read : hosts members = .ok results) :
    ∀ entry ∈ results, ∀ observation ∈ entry.2, observation.IsFinite := by
  induction members generalizing results with
  | nil =>
      cases read
      intro entry member
      cases member
  | cons member rest ih =>
      obtain ⟨first, taken, read⟩ := bind_ok read
      obtain ⟨others, later, read⟩ := bind_ok read
      cases read
      intro entry found
      rcases List.mem_cons.mp found with same | found
      · subst same
        exact isFinite_host taken
      · exact ih later entry found

end Decoding

theorem Document.isFinite_read {text : List UInt8} {document : Document Float}
    (read : Document.read text = .ok document) : document.IsFinite := by
  unfold Document.read at read
  obtain ⟨value, _, read⟩ := bind_ok read
  unfold ofJson at read
  split at read
  next members =>
    simp only at read
    split at read
    · obtain ⟨hosts, hostsRead, read⟩ := bind_ok read
      obtain ⟨earliest, earliestRead, read⟩ := bind_ok read
      obtain ⟨latest, latestRead, read⟩ := bind_ok read
      cases read
      refine ⟨?_, ?_, ?_⟩
      · intro observations member
        obtain ⟨entry, found, rfl⟩ := List.mem_map.mp member
        exact Decoding.isFinite_hosts hostsRead entry (HostMap.mem_ofList found)
      · intro time given
        rw [Option.mem_def] at given
        subst given
        exact Decoding.isFinite_number? (mapError_ok earliestRead)
      · intro time given
        rw [Option.mem_def] at given
        subst given
        exact Decoding.isFinite_number? (mapError_ok latestRead)
    · cases read
  · cases read

/-- Condensing keeps observations as they were reported, or moves them to full seconds. -/
theorem Document.exists_of_mem_condense {α : Type} [Scalar α] {document : Document α}
    {criteria : Option Criteria} {observations : List (Observation α)}
    (member : observations ∈ (document.condense criteria).1.hosts.values)
    {observation : Observation α} (retained : observation ∈ observations) :
    ∃ reports ∈ document.hosts.values, ∃ reported ∈ reports, observation = reported ∨
      observation = reported.moveTo (Scalar.round reported.time) := by
  cases criteria with
  | none => exact ⟨observations, member, observation, retained, .inl rfl⟩
  | some criteria =>
      obtain ⟨entry, found, rfl⟩ := List.mem_map.mp member
      obtain ⟨host, hostMember, rfl⟩ := List.mem_map.mp found
      obtain ⟨reported, reportedMember, rfl⟩ := Criteria.exists_of_mem_condense retained
      refine ⟨host.2, List.mem_map_of_mem hostMember, reported, reportedMember, ?_⟩
      unfold Criteria.place
      split
      · exact .inr rfl
      · exact .inl rfl

theorem Document.isFinite_condense_time {document : Document Float}
    (finite : ∀ observations ∈ document.hosts.values, ∀ observation ∈ observations,
      observation.time.isFinite = true) (criteria : Option Criteria) :
    ∀ observations ∈ (document.condense criteria).1.hosts.values, ∀ observation ∈ observations,
      observation.time.isFinite = true := by
  intro observations member observation retained
  obtain ⟨reports, known, reported, own, rfl | rfl⟩ := exists_of_mem_condense member retained
  · exact finite reports known observation own
  · exact Binary64.isFinite_round (finite reports known reported own)

theorem Document.IsFinite.condense {document : Document Float} (finite : document.IsFinite)
    (criteria : Option Criteria) : (document.condense criteria).1.IsFinite := by
  have window : (document.condense criteria).1.window = document.window := by
    cases criteria <;> rfl
  refine ⟨?_, window ▸ finite.window⟩
  intro observations member observation retained
  obtain ⟨reports, known, reported, own, rfl | rfl⟩ := exists_of_mem_condense member retained
  · exact finite.observations reports known observation own
  · have isFinite := finite.observations reports known reported own
    exact
      { time := Binary64.isFinite_round isFinite.time
        memory := isFinite.memory
        memoryUsed := isFinite.memoryUsed }

theorem Window.IsFinite.override {window other : Window Float} (finite : window.IsFinite)
    (otherFinite : other.IsFinite) : (window.override other).IsFinite := by
  constructor
  · intro time given
    cases asked : other.earliest with
    | none => exact finite.earliest time (by simpa [Window.override, asked] using given)
    | some own => exact otherFinite.earliest time (by simpa [Window.override, asked] using given)
  · intro time given
    cases asked : other.latest with
    | none => exact finite.latest time (by simpa [Window.override, asked] using given)
    | some own => exact otherFinite.latest time (by simpa [Window.override, asked] using given)

theorem Document.condense_everyField (document : Document Float) :
    (document.condense (some .everyField)).1.hosts =
      document.hosts.map fun _ observations => Criteria.everyField.condense observations :=
  rfl

/-- A report is made of the timeline of a condensed document. -/
theorem Report.build_eq {α : Type} [Scalar α] {document : Document α} {window : Window α}
    {criteria : Option Criteria} {report : Report α}
    (built : Report.build document window criteria = .ok report) :
    Timeline.build (document.window.override window) (document.condense criteria).1.hosts =
        .ok report.timeline ∧
      report.stateChart = report.timeline.stateChart ∧
      report.occupancies = report.timeline.occupancies ∧
      report.timeline.loads = .ok report.loads := by
  unfold Report.build at built
  obtain ⟨timeline, timelineBuilt, built⟩ := bind_ok built
  obtain ⟨loads, measured, built⟩ := bind_ok built
  cases built
  have unchanged : (document.condense criteria).1.window = document.window := by
    cases criteria <;> rfl
  rw [← unchanged]
  exact ⟨mapError_ok timelineBuilt, rfl, rfl, mapError_ok measured⟩

/-- The report of a text, without a window of its own, if there is one. -/
def Report.ofText? (text : List UInt8) (criteria : Option Criteria) :
    Option (Document Float × Report Float) := do
  let document ← (Document.read text).toOption
  let report ← (Report.build document {} criteria).toOption
  return (document, report)

theorem Report.built_of_ofText? {text : List UInt8} {criteria : Option Criteria}
    {document : Document Float} {report : Report Float}
    (found : Report.ofText? text criteria = some (document, report)) :
    Document.read text = .ok document ∧ Report.build document {} criteria = .ok report := by
  unfold Report.ofText? at found
  obtain ⟨other, read, found⟩ := Option.bind_eq_some_iff.mp found
  obtain ⟨made, built, found⟩ := Option.bind_eq_some_iff.mp found
  cases found
  exact ⟨eq_ok_of_toOption read, eq_ok_of_toOption built⟩

end HostTimeline
