import HostTimeline.Proofs.Document
import HostTimeline.Proofs.Figures
import HostTimeline.Proofs.Number.Greatest
import HostTimeline.Proofs.Number.WholeNumber
import HostTimeline.Proofs.Runs
import HostTimeline.Proofs.Spanning

/-!
When a report fails.  Apart from a window that cannot be resolved, this takes an observation that
uses more of a resource than any host offers (`Report.failsAsDescribed_build`).  The error is then
about the first host with such an observation, about its memory before its slots, and about the
earliest observation of these.
-/

namespace HostTimeline

open OrderedScalar

variable {α : Type} [Scalar α]

namespace Timeline

/-- What the clipped observations of all hosts offer of a resource. -/
def offers (timeline : Timeline α) (resource : Resource) : List α :=
  timeline.tracks.flatMap fun track =>
    track.observations.map fun observation => observation.offered resource

/-- Whether an observation uses more of a resource than is offered in any. -/
def Exceeds (timeline : Timeline α) (resource : Resource) (observation : Observation α) : Prop :=
  ∃ most, Scalar.IsMost (timeline.offers resource) most ∧ most < observation.inUse resource

/-- The first host that uses too much, and its first observation that does. -/
structure IsFirstOverload (timeline : Timeline α) (error : HostOverload α) (track : Track α)
    (observation : Observation α) : Prop where
  firstTrack : IsFirst (fun track => ∃ resource, ∃ observation ∈ track.observations,
    timeline.Exceeds resource observation) timeline.tracks track
  host : error.host = track.name
  resource : error.resource = .memory ∨ error.resource = .slots ∧
    ∀ observation ∈ track.observations, ¬ timeline.Exceeds .memory observation
  firstObservation : IsFirst (timeline.Exceeds error.resource) track.observations observation
  value : error.overload.value = observation.inUse error.resource
  time : error.overload.time = observation.time
  limit : Scalar.IsMost (timeline.offers error.resource) error.overload.limit

/-- Hosts in the order of their names, each with its observations in the order of time. -/
structure IsInOrder (timeline : Timeline α) : Prop where
  names : (timeline.tracks.map Track.name).Pairwise (· < ·)
  times : ∀ track ∈ timeline.tracks,
    track.observations.Pairwise fun left right => left.time ≤ right.time

end Timeline

theorem Track.load_error_iff {track : Track α} {resource : Resource} {limit : α}
    {overload : Overload α} : track.load resource limit = .error overload ↔
      ∃ observation, IsFirst (fun observation => limit < observation.inUse resource)
          track.observations observation ∧
        overload = { value := observation.inUse resource, time := observation.time, limit } := by
  unfold Track.load
  rw [Load.ofSamples_error_iff]
  constructor
  · rintro ⟨sample, first, rfl⟩
    obtain ⟨observation, rfl, found⟩ := first.of_map
    exact ⟨observation, found, rfl⟩
  · rintro ⟨observation, first, rfl⟩
    refine ⟨observation.sample resource, .map ?_, rfl⟩
    exact first

/-- A load can be measured exactly if nothing is above the limit. -/
theorem Track.load_ok_iff {track : Track α} {resource : Resource} {limit : α} :
    (∃ load, track.load resource limit = .ok load) ↔
      ∀ observation ∈ track.observations, ¬ limit < observation.inUse resource := by
  constructor
  · rintro ⟨load, done⟩ observation member above
    obtain ⟨first, found⟩ : ∃ first, IsFirst (fun observation => limit < observation.inUse resource)
        track.observations first := IsFirst.exists_of_mem member above
    have failed := Track.load_error_iff.mpr ⟨first, found, rfl⟩
    rw [done] at failed
    cases failed
  · intro within
    cases done : track.load resource limit with
    | ok load => exact ⟨load, rfl⟩
    | error overload =>
        obtain ⟨observation, first, _⟩ := Track.load_error_iff.mp done
        exact absurd first.passes.2 (within observation first.passes.1)

theorem Track.isMost_capacity [OrderedScalar α] (track : Track α) (resource : Resource) :
    Scalar.IsMost (track.observations.map fun observation => observation.offered resource)
      (track.capacity resource) :=
  isMost_maxWithZero _

namespace Timeline

/-- Memory is measured first; slots only if that succeeds. -/
theorem hostLoad_error_iff {mostMemory mostSlots : α} {track : Track α} {error : HostOverload α} :
    hostLoad mostMemory mostSlots track = .error error ↔
      (∃ overload, track.load .memory mostMemory = .error overload ∧
        error = { host := track.name, resource := .memory, overload }) ∨
      ((∃ load, track.load .memory mostMemory = .ok load) ∧
        ∃ overload, track.load .slots mostSlots = .error overload ∧
          error = { host := track.name, resource := .slots, overload }) := by
  cases memoryDone : track.load .memory mostMemory with
  | error overload =>
      simp only [hostLoad, memoryDone, bind, Except.bind, Except.error.injEq, exists_eq_left',
        reduceCtorEq, exists_false, false_and, or_false]
      exact eq_comm
  | ok memory =>
      cases slotsDone : track.load .slots mostSlots with
      | error overload =>
          simp only [hostLoad, memoryDone, slotsDone, bind, Except.bind, Except.error.injEq,
            exists_eq_left', reduceCtorEq, exists_false, false_and, false_or, Except.ok.injEq,
            exists_eq', true_and]
          exact eq_comm
      | ok slots =>
          simp only [hostLoad, memoryDone, slotsDone, bind, Except.bind, pure, Except.pure,
            reduceCtorEq, exists_false, false_and, and_false, or_self]

theorem loads_error_iff {timeline : Timeline α} {error : HostOverload α} :
    timeline.loads = .error error ↔ ∃ track,
      IsFirst (fun track => ∃ error, hostLoad (timeline.capacity .memory).max
        (timeline.capacity .slots).max track = .error error) timeline.tracks track ∧
      hostLoad (timeline.capacity .memory).max (timeline.capacity .slots).max track =
        .error error := by
  have named (track : Track α) (error : HostOverload α) :
      (do
        let load ← hostLoad (timeline.capacity .memory).max (timeline.capacity .slots).max track
        return (track.name, load) : Except (HostOverload α) (String × HostLoad α)) = .error error ↔
      hostLoad (timeline.capacity .memory).max (timeline.capacity .slots).max track =
        .error error := by
    cases hostLoad (timeline.capacity .memory).max (timeline.capacity .slots).max track with
    | error other => simp only [bind, Except.bind, Except.error.injEq]
    | ok load => simp only [bind, Except.bind, pure, Except.pure, reduceCtorEq]
  unfold loads
  rw [mapM_error_iff]
  simp only [named]

theorem capacity_hosts (timeline : Timeline α) (resource : Resource) :
    (timeline.capacity resource).hosts =
      timeline.tracks.map fun track => (track.name, track.capacity resource) :=
  rfl

theorem capacity_values (timeline : Timeline α) (resource : Resource) :
    (timeline.capacity resource).hosts.map Prod.snd =
      timeline.tracks.map fun track => track.capacity resource := by
  rw [capacity_hosts, List.map_map]
  rfl

variable [OrderedScalar α] {timeline : Timeline α} {resource : Resource}

/-- The most that any host offers is the greatest of their capacities. -/
theorem isMost_max (timeline : Timeline α) (resource : Resource) :
    Scalar.IsMost (timeline.tracks.map fun track => track.capacity resource)
      (timeline.capacity resource).max := by
  rw [← capacity_values]
  exact isMost_maxWithZero _

theorem isMost_capacity (timeline : Timeline α) (resource : Resource) :
    Scalar.IsMost (timeline.offers resource) (timeline.capacity resource).max := by
  have hosts := timeline.isMost_max resource
  have own (track : Track α) := track.isMost_capacity resource
  refine ⟨hosts.atLeastZero, ?_, ?_⟩
  · intro value member comparable
    obtain ⟨track, found, offered⟩ := List.mem_flatMap.mp member
    exact le_trans ((own track).above value offered comparable)
      (hosts.above _ (List.mem_map_of_mem found) (le_self_of_le (own track).atLeastZero).2)
  · rcases hosts.attained with zero | member
    · exact .inl zero
    · obtain ⟨track, found, most⟩ := List.mem_map.mp member
      rw [← most]
      exact (own track).attained.imp_right fun offered =>
        List.mem_flatMap.mpr ⟨track, found, offered⟩

theorem exceeds_eq (timeline : Timeline α) (resource : Resource) : timeline.Exceeds resource =
    fun observation => (timeline.capacity resource).max < observation.inUse resource := by
  refine funext fun observation => propext
    ⟨?_, fun less => ⟨_, timeline.isMost_capacity resource, less⟩⟩
  rintro ⟨most, isMost, less⟩
  exact lt_of_le_of_lt ((timeline.isMost_capacity resource).le isMost) less

/-- What is reported of a host that cannot be measured. -/
theorem hostLoad_error {track : Track α} {error : HostOverload α}
    (failed : hostLoad (timeline.capacity .memory).max (timeline.capacity .slots).max track =
      .error error) : error.host = track.name ∧
    (error.resource = .memory ∨ error.resource = .slots ∧
      ∀ observation ∈ track.observations, ¬ timeline.Exceeds .memory observation) ∧
    ∃ observation, IsFirst (timeline.Exceeds error.resource) track.observations observation ∧
      error.overload = { value := observation.inUse error.resource, time := observation.time
                         limit := (timeline.capacity error.resource).max } := by
  simp only [exceeds_eq]
  rcases hostLoad_error_iff.mp failed with ⟨overload, memory, rfl⟩ | ⟨memory, overload, slots, rfl⟩
  · exact ⟨rfl, .inl rfl, Track.load_error_iff.mp memory⟩
  · exact ⟨rfl, .inr ⟨rfl, Track.load_ok_iff.mp memory⟩, Track.load_error_iff.mp slots⟩

theorem hostLoad_fails_iff {track : Track α} :
    (∃ error, hostLoad (timeline.capacity .memory).max (timeline.capacity .slots).max track =
      .error error) ↔
    ∃ resource, ∃ observation ∈ track.observations, timeline.Exceeds resource observation := by
  constructor
  · rintro ⟨error, failed⟩
    obtain ⟨_, _, observation, first, _⟩ := hostLoad_error failed
    exact ⟨error.resource, observation, first.passes⟩
  · rintro ⟨resource, observation, member, exceeds⟩
    rw [exceeds_eq] at exceeds
    cases done : hostLoad (timeline.capacity .memory).max (timeline.capacity .slots).max track with
    | error error => exact ⟨error, rfl⟩
    | ok load =>
        obtain ⟨memory, slots⟩ := hostLoad_ok done
        cases resource with
        | memory => exact absurd exceeds (Track.load_ok_iff.mp ⟨_, memory⟩ observation member)
        | slots => exact absurd exceeds (Track.load_ok_iff.mp ⟨_, slots⟩ observation member)

theorem isFirstOverload_of_loads {error : HostOverload α} (failed : timeline.loads = .error error) :
    ∃ track observation, timeline.IsFirstOverload error track observation := by
  obtain ⟨track, firstTrack, own⟩ := loads_error_iff.mp failed
  obtain ⟨host, resource, observation, firstObservation, overload⟩ := hostLoad_error own
  exact ⟨track, observation,
    { firstTrack := firstTrack.congr fun _ _ => hostLoad_fails_iff
      host, resource, firstObservation
      value := congrArg Overload.value overload
      time := congrArg Overload.time overload
      limit := by
        rw [overload]
        exact timeline.isMost_capacity error.resource }⟩

theorem loads_fails_iff : (∃ error, timeline.loads = .error error) ↔
    ∃ track ∈ timeline.tracks, ∃ resource, ∃ observation ∈ track.observations,
      timeline.Exceeds resource observation := by
  constructor
  · rintro ⟨error, failed⟩
    obtain ⟨track, observation, overload⟩ := isFirstOverload_of_loads failed
    exact ⟨track, overload.firstTrack.passes⟩
  · rintro ⟨track, member, overloaded⟩
    cases done : timeline.loads with
    | error error => exact ⟨error, rfl⟩
    | ok loads =>
        obtain ⟨_, _, stepped⟩ := mapM_ok done member
        obtain ⟨load, loaded, _⟩ := bind_ok stepped
        obtain ⟨error, failed⟩ := hostLoad_fails_iff.mpr overloaded
        rw [loaded] at failed
        cases failed

/-- Where nothing uses more than it offers itself, nothing uses too much. -/
theorem not_exceeds_of_le (within : ∀ track ∈ timeline.tracks, ∀ observation ∈ track.observations,
      ∀ resource, observation.inUse resource ≤ observation.offered resource)
    {track : Track α} (member : track ∈ timeline.tracks) {observation : Observation α}
    (observed : observation ∈ track.observations) : ¬ timeline.Exceeds resource observation := by
  rintro ⟨most, isMost, less⟩
  have offered := within track member observation observed resource
  have listed : observation.offered resource ∈ timeline.offers resource :=
    List.mem_flatMap.mpr ⟨track, member, List.mem_map_of_mem observed⟩
  exact not_le_of_lt less
    (le_trans offered (isMost.above _ listed (le_self_of_le offered).2))

end Timeline

/-- All times that were observed. -/
def HostMap.times {α : Type} (hosts : HostMap (List (Observation α))) : List α :=
  hosts.values.flatMap fun observations => observations.map Observation.time

theorem Timeline.build_error_iff {window : Window α} {hosts : HostMap (List (Observation α))}
    {reason : WindowError α} : Timeline.build window hosts = .error reason ↔
      window.resolve hosts.times = .error reason := by
  unfold HostMap.times
  cases resolved : window.resolve (hosts.values.flatMap fun observations =>
    observations.map Observation.time) with
  | error other =>
      simp only [Timeline.build, TimeGrid.build, resolved, bind, Except.bind, Except.error.injEq]
  | ok span =>
      simp only [Timeline.build, TimeGrid.build, resolved, bind, Except.bind, pure, Except.pure,
        reduceCtorEq]

namespace Report

variable {document : Document α} {window : Window α} {criteria : Option Criteria}

theorem build_error_iff {error : ReportError α} :
    Report.build document window criteria = .error error ↔
    (∃ reason, Timeline.build (document.window.override window)
        (document.condense criteria).1.hosts = .error reason ∧ error = .window reason) ∨
    ∃ timeline, Timeline.build (document.window.override window)
        (document.condense criteria).1.hosts = .ok timeline ∧
      ∃ overload, timeline.loads = .error overload ∧ error = .overload overload := by
  have unchanged : (document.condense criteria).1.window = document.window := by
    cases criteria <;> rfl
  unfold Report.build
  rw [← unchanged]
  cases built : Timeline.build ((document.condense criteria).1.window.override window)
      (document.condense criteria).1.hosts with
  | error reason =>
      simp [built, Except.mapError, bind, Except.bind, eq_comm]
  | ok timeline =>
      cases done : timeline.loads with
      | error overload =>
          simp [built, done, Except.mapError, bind, Except.bind, eq_comm]
      | ok loads =>
          simp [built, done, Except.mapError, bind, Except.bind, pure, Except.pure]

theorem build_window_iff {reason : WindowError α} :
    Report.build document window criteria = .error (.window reason) ↔
      (document.window.override window).resolve (document.condense criteria).1.hosts.times =
        .error reason := by
  rw [build_error_iff, ← Timeline.build_error_iff]
  constructor
  · rintro (⟨other, failed, same⟩ | ⟨_, _, _, _, same⟩)
    · cases same
      exact failed
    · cases same
  · exact fun failed => .inl ⟨reason, failed, rfl⟩

theorem build_overload_iff {overload : HostOverload α} :
    Report.build document window criteria = .error (.overload overload) ↔
      ∃ timeline, Timeline.build (document.window.override window)
        (document.condense criteria).1.hosts = .ok timeline ∧ timeline.loads = .error overload := by
  rw [build_error_iff]
  constructor
  · rintro (⟨reason, _, same⟩ | ⟨timeline, built, other, failed, same⟩)
    · cases same
    · cases same
      exact ⟨timeline, built, failed⟩
  · rintro ⟨timeline, built, failed⟩
    exact .inr ⟨timeline, built, overload, failed, rfl⟩

theorem build_fails_iff : (∃ error, Report.build document window criteria = .error error) ↔
    (∃ reason, Report.build document window criteria = .error (.window reason)) ∨
    ∃ overload, Report.build document window criteria = .error (.overload overload) := by
  constructor
  · rintro ⟨reason | overload, failed⟩
    · exact .inl ⟨reason, failed⟩
    · exact .inr ⟨overload, failed⟩
  · rintro (⟨reason, failed⟩ | ⟨overload, failed⟩)
    · exact ⟨.window reason, failed⟩
    · exact ⟨.overload overload, failed⟩

end Report

theorem Observation.inUse_le_offered {observation : Observation Float}
    (memory : observation.memoryUsed ≤ observation.memory)
    (slots : observation.slotsUsed ≤ observation.slots) (resource : Resource) :
    observation.inUse resource ≤ observation.offered resource := by
  cases resource with
  | memory => exact memory
  | slots => exact Binary64.ofInt_le slots

theorem Document.inUse_le_offered_condense {document : Document Float}
    (within : ∀ observations ∈ document.hosts.values, ∀ observation ∈ observations,
      observation.memoryUsed ≤ observation.memory ∧ observation.slotsUsed ≤ observation.slots)
    (criteria : Option Criteria) :
    ∀ observations ∈ (document.condense criteria).1.hosts.values,
      ∀ observation ∈ observations, ∀ resource,
        observation.inUse resource ≤ observation.offered resource := by
  intro observations member observation retained resource
  obtain ⟨reports, known, reported, own, same⟩ := Document.exists_of_mem_condense member retained
  obtain ⟨memory, slots⟩ := within reports known reported own
  have kept := Observation.inUse_le_offered memory slots resource
  rcases same with rfl | rfl
  · exact kept
  · rwa [Observation.inUse_moveTo, Observation.offered_moveTo]

namespace Timeline

variable {window : Window Float} {hosts : HostMap (List (Observation Float))}
  {timeline : Timeline Float}

theorem isInOrder_build (windowFinite : window.IsFinite)
    (timesFinite : ∀ observations ∈ hosts.values, ∀ observation ∈ observations,
      observation.time.isFinite = true)
    (built : Timeline.build window hosts = .ok timeline) : timeline.IsInOrder := by
  have spanned := isSpanned_build windowFinite timesFinite built
  have tracked := (build_eq built).2
  constructor
  · rw [tracked, List.map_map]
    exact hosts.pairwise_sorted_names
  · intro track member
    rw [tracked] at member
    obtain ⟨host, _, rfl⟩ := List.mem_map.mp member
    exact Span.clip_ascends spanned.start_le_stop host.2

/-- Clipped observations use no more than they offer if those that were reported do not. -/
theorem inUse_le_offered_build (within : ∀ observations ∈ hosts.values,
      ∀ observation ∈ observations, ∀ resource,
        observation.inUse resource ≤ observation.offered resource)
    (built : Timeline.build window hosts = .ok timeline) :
    ∀ track ∈ timeline.tracks, ∀ observation ∈ track.observations, ∀ resource,
      observation.inUse resource ≤ observation.offered resource := by
  refine forall_clipped within ?_ ?_ built
  · intro time resource
    rw [Observation.inUse_vacant, Observation.offered_vacant]
    exact OrderedScalar.zero_le_zero
  · intro observation time own resource
    rw [Observation.inUse_moveTo, Observation.offered_moveTo]
    exact own resource

end Timeline

namespace Report

/-- When a report fails: if the window cannot be resolved, or if some observation uses more of a
resource than is offered in any. -/
structure FailsAsDescribed (document : Document Float) (window : Window Float)
    (criteria : Option Criteria) : Prop where
  fails : (∃ error, Report.build document window criteria = .error error) ↔
    (∃ reason, (document.window.override window).resolve
      (document.condense criteria).1.hosts.times = .error reason) ∨
    ∃ timeline, Timeline.build (document.window.override window)
        (document.condense criteria).1.hosts = .ok timeline ∧
      ∃ track ∈ timeline.tracks, ∃ resource, ∃ observation ∈ track.observations,
        timeline.Exceeds resource observation
  unresolved : ∀ reason, Report.build document window criteria = .error (.window reason) ↔
    (document.window.override window).resolve (document.condense criteria).1.hosts.times =
      .error reason
  overload : ∀ error, Report.build document window criteria = .error (.overload error) →
    ∃ timeline, Timeline.build (document.window.override window)
        (document.condense criteria).1.hosts = .ok timeline ∧ timeline.IsInOrder ∧
      ∃ track observation, timeline.IsFirstOverload error track observation
  within : (∀ observations ∈ document.hosts.values, ∀ observation ∈ observations,
      observation.memoryUsed ≤ observation.memory ∧ observation.slotsUsed ≤ observation.slots) →
    ∀ error, Report.build document window criteria ≠ .error (.overload error)

variable {document : Document Float} {window : Window Float}

theorem failsAsDescribed_build
    (timesFinite : ∀ observations ∈ document.hosts.values, ∀ observation ∈ observations,
      observation.time.isFinite = true)
    (windowFinite : (document.window.override window).IsFinite) (criteria : Option Criteria) :
    FailsAsDescribed document window criteria := by
  constructor
  · rw [build_fails_iff]
    simp only [build_window_iff, build_overload_iff, ← Timeline.loads_fails_iff]
    refine or_congr_right ⟨?_, ?_⟩
    · rintro ⟨overload, timeline, built, failed⟩
      exact ⟨timeline, built, overload, failed⟩
    · rintro ⟨timeline, built, overload, failed⟩
      exact ⟨overload, timeline, built, failed⟩
  · exact fun _ => build_window_iff
  · intro error failed
    obtain ⟨timeline, built, done⟩ := build_overload_iff.mp failed
    exact ⟨timeline, built,
      Timeline.isInOrder_build windowFinite
        (Document.isFinite_condense_time timesFinite criteria) built,
      Timeline.isFirstOverload_of_loads done⟩
  · intro within error failed
    obtain ⟨timeline, built, done⟩ := build_overload_iff.mp failed
    have reported := Timeline.inUse_le_offered_build
      (Document.inUse_le_offered_condense within criteria) built
    obtain ⟨track, member, _, observation, observed, exceeds⟩ :=
      Timeline.loads_fails_iff.mp ⟨error, done⟩
    exact Timeline.not_exceeds_of_le reported member observed exceeds

/-- The error of a report that fails on a host. -/
def overload? (document : Document Float) : Option (HostOverload Float) :=
  match Report.build document {} none with
  | .error (.overload error) => some error
  | _ => none

theorem build_of_overload? {error : HostOverload Float} (found : overload? document = some error) :
    Report.build document {} none = .error (.overload error) := by
  unfold overload? at found
  split at found
  next failed =>
    cases found
    exact failed
  · cases found

/-- The first host uses more than it offers itself, and only the second one uses more than any
host offers. -/
def overused : Document Float where
  hosts := HostMap.ofList [
    ("node2", [
      { time := 4.0, state := .used, slots := 4, slotsUsed := 5, memory := 8.0, memoryUsed := 9.0 },
      { time := 2.0, state := .used, slots := 4, slotsUsed := 6, memory := 8.0, memoryUsed := 8.0 }]),
    ("node1", [
      { time := 1.0, state := .idle, slots := 2, slotsUsed := 4, memory := 2.0, memoryUsed := 8.0 }])]

theorem failsAsDescribed_build_overused : ∃ error,
    Report.build overused {} none = .error (.overload error) ∧ error.host = "node2" ∧
      error.resource = .memory ∧ error.overload.time = 4.0 ∧
      FailsAsDescribed overused {} none := by
  have read : (overload? overused).map (fun error =>
      (error.host, error.resource, error.overload.time)) = some ("node2", .memory, 4.0) := by
    decide +kernel
  obtain ⟨error, found, shown⟩ := Option.map_eq_some_iff.mp read
  simp only [Prod.mk.injEq] at shown
  have finite : (overused.window.override {}).IsFinite :=
    ⟨by simp [overused, Window.override], by simp [overused, Window.override]⟩
  exact ⟨error, build_of_overload? found, shown.1, shown.2.1, shown.2.2,
    failsAsDescribed_build (by decide +kernel) finite none⟩

end Report

end HostTimeline
