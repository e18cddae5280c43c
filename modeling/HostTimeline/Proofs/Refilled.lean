import HostTimeline.Proofs.Clipping
import HostTimeline.Proofs.Load
import HostTimeline.Proofs.Occupancy
import HostTimeline.Proofs.Timeline

/-!
The figures of a host taken from what it shows on the grid.  Filling repeats observations, and a
repeated one moves nothing but the end of the current stay or run, provided that it is known to
be a repetition: a value that is not equal to itself ends the run it began.
-/

namespace HostTimeline

variable {α : Type} [Scalar α] {first : Observation α} {rest filled : List (Observation α)}

namespace Occupancy

theorem ignoresRefills (accepts : PowerState → Bool) :
    IgnoresRefills Observation.moveTo (Meter.take (α := α) accepts) Meter.settled Meter.IsIn
      fun _ => True where
  moves {left right} next same := by
    rw [Meter.settled_take, same, ← Meter.settled_take]
  enters meter next _ := Meter.isIn_take accepts meter next
  stays _ here := Meter.take_of_isIn accepts here rfl

omit [Scalar α] in
theorem Meter.eq_of_settled {left right : Meter α} (settled : left.settled = right.settled)
    (stop : left.stop = right.stop) : left = right := by
  have whole : ({ left.settled with stop := left.stop } : Meter α) =
      { right.settled with stop := right.stop } := by rw [settled, stop]
  exact whole

theorem ofObservations_fills (accepts : PowerState → Bool)
    (fills : Fills Observation.moveTo first rest filled) :
    ofObservations (fun state _ => accepts state) (first :: filled) =
      ofObservations (fun state _ => accepts state) (first :: rest) := by
  have settled : ((first :: filled).foldl (Meter.take accepts) Meter.fresh).settled =
      ((first :: rest).foldl (Meter.take accepts) Meter.fresh).settled :=
    fills.view_foldl (ignoresRefills accepts) (fun _ _ => trivial) rfl
      (Meter.isIn_take accepts Meter.fresh first)
  have stop : ((first :: filled).foldl (Meter.take accepts) Meter.fresh).stop =
      ((first :: rest).foldl (Meter.take accepts) Meter.fresh).stop := by
    rw [stop_foldl, stop_foldl, List.getLast?_cons, List.getLast?_cons, fills.getLast?_eq]
  rw [ofObservations_eq, ofObservations_eq, Meter.eq_of_settled settled stop]

end Occupancy

namespace Load

variable {rule : Rule α}

def recordNext (rule : Rule α) (resource : Resource) (state : Except (Overload α) (Meter α))
    (observation : Observation α) : Except (Overload α) (Meter α) :=
  state.bind fun meter =>
    Meter.outcome ((Meter.record rule (observation.sample resource)).run meter)

theorem foldl_recordNext_error (overload : Overload α) (resource : Resource)
    (observations : List (Observation α)) :
    observations.foldl (recordNext rule resource) (.error overload) = .error overload := by
  induction observations with
  | nil => rfl
  | cons observation rest ih => exact ih

theorem recordAll_eq_foldl (resource : Resource) (observations : List (Observation α))
    (meter : Meter α) :
    Meter.outcome ((Meter.recordAll rule
        (observations.map fun observation => observation.sample resource)).run meter) =
      observations.foldl (recordNext rule resource) (.ok meter) := by
  induction observations generalizing meter with
  | nil => rfl
  | cons observation rest ih =>
      have next : recordNext rule resource (.ok meter) observation =
          Meter.outcome ((Meter.record rule (observation.sample resource)).run meter) := rfl
      rw [List.map_cons, List.foldl_cons, Meter.outcome_recordAll_cons, next]
      cases Meter.outcome ((Meter.record rule (observation.sample resource)).run meter) with
      | error overload => exact (foldl_recordNext_error overload resource rest).symm
      | ok next => exact ih next

theorem recordNext_ok {resource : Resource} {observation : Observation α}
    (within : ¬ rule.limit < observation.inUse resource) (meter : Meter α) :
    recordNext rule resource (.ok meter) observation =
      .ok (meter.accept rule (observation.sample resource)) :=
  congrArg Meter.outcome (Meter.record_of_not_lt within meter)

theorem recordNext_error {resource : Resource} {observation : Observation α}
    (above : rule.limit < observation.inUse resource) (meter : Meter α) :
    recordNext rule resource (.ok meter) observation = .error
      { value := observation.inUse resource, time := observation.time, limit := rule.limit } :=
  congrArg Meter.outcome (Meter.record_of_lt above meter)

section Runs

/-- Whether the current run, if no sample was above the limit, is one of samples like that of an
observation. -/
def RunsAt (rule : Rule α) (resource : Resource) (state : Except (Overload α) (Meter α))
    (item : Observation α) : Prop :=
  ∀ meter, state = .ok meter →
    meter.IsOf rule (item.sample resource) ∧ ¬ rule.limit < item.inUse resource

theorem runsAt_recordNext {resource : Resource} {next : Observation α}
    (own : rule.same (next.sample resource) (next.sample resource) = true)
    (state : Except (Overload α) (Meter α)) :
    RunsAt rule resource (recordNext rule resource state next) next := by
  intro meter recorded
  obtain ⟨before, rfl, _⟩ := bind_ok recorded
  by_cases above : rule.limit < next.inUse resource
  · rw [recordNext_error above] at recorded
    cases recorded
  · rw [recordNext_ok above] at recorded
    cases recorded
    exact ⟨Meter.isOf_accept before own, above⟩

theorem recordNext_of_runsAt (same : rule.same = sameValueAndState) {resource : Resource}
    {state : Except (Overload α) (Meter α)} {item : Observation α} (point : α)
    (here : RunsAt rule resource state item) :
    (recordNext rule resource state (item.moveTo point)).map (Meter.stoppedAt · Scalar.zero) =
        state.map (Meter.stoppedAt · Scalar.zero) ∧
      RunsAt rule resource (recordNext rule resource state (item.moveTo point)) item := by
  cases state with
  | error overload => exact ⟨rfl, here⟩
  | ok meter =>
      obtain ⟨current, within⟩ := here meter rfl
      have alike (run : Sample α) (continued : rule.same run (item.sample resource) = true) :
          rule.same run ((item.moveTo point).sample resource) = true := by
        simp only [same, sameValueAndState, Observation.sample, Observation.inUse_moveTo] at *
        exact continued
      obtain ⟨unmoved, still⟩ := Meter.accept_of_isOf current alike Scalar.zero
      rw [recordNext_ok (by rwa [Observation.inUse_moveTo])]
      refine ⟨congrArg Except.ok unmoved, fun next taken => ?_⟩
      cases taken
      exact ⟨still, within⟩

theorem recordNext_map (resource : Resource) (state : Except (Overload α) (Meter α)) (time : α)
    (next : Observation α) :
    recordNext rule resource (state.map (Meter.stoppedAt · time)) next =
      recordNext rule resource state next := by
  cases state with
  | error overload => rfl
  | ok meter =>
      change recordNext rule resource (.ok (meter.stoppedAt time)) next = _
      by_cases above : rule.limit < next.inUse resource
      · rw [recordNext_error above, recordNext_error above]
      · rw [recordNext_ok above, recordNext_ok above, Meter.accept_stoppedAt]

theorem ignoresRefills (same : rule.same = sameValueAndState) (resource : Resource) :
    IgnoresRefills Observation.moveTo (recordNext rule resource)
      (Except.map (Meter.stoppedAt · Scalar.zero)) (RunsAt rule resource) fun observation =>
      rule.same (observation.sample resource) (observation.sample resource) = true where
  moves {left right} next alike := by
    rw [← recordNext_map resource left Scalar.zero, alike, recordNext_map]
  enters state _ own := runsAt_recordNext own state
  stays point here := recordNext_of_runsAt same point here

omit [Scalar α] in
theorem Meter.eq_of_stoppedAt {left right : Meter α} {time : α}
    (alike : left.stoppedAt time = right.stoppedAt time) (stop : left.stop = right.stop) :
    left = right := by
  have whole : (left.stoppedAt time).stoppedAt left.stop =
      (right.stoppedAt time).stoppedAt right.stop := by rw [alike, stop]
  exact whole

/-- The load of a host is the same if observations are repeated, provided that their values are
equal to themselves. -/
theorem ofSamples_fills (same : rule.same = sameValueAndState) {resource : Resource}
    (own : ∀ observation ∈ first :: rest,
      (observation.inUse resource == observation.inUse resource) = true)
    (fills : Fills Observation.moveTo first rest filled) :
    ofSamples rule ((first :: filled).map fun observation => observation.sample resource) =
      ofSamples rule ((first :: rest).map fun observation => observation.sample resource) := by
  have regular (observation : Observation α) (member : observation ∈ first :: rest) :
      rule.same (observation.sample resource) (observation.sample resource) = true := by
    rw [same]
    exact sameValueAndState_iff.mpr ⟨own observation member, rfl⟩
  have alike := fills.view_foldl (ignoresRefills same resource)
    (fun observation member => regular observation (List.mem_cons_of_mem first member)) rfl
    (runsAt_recordNext (regular first List.mem_cons_self) (.ok Meter.fresh))
  rw [← List.foldl_cons, ← List.foldl_cons, ← recordAll_eq_foldl, ← recordAll_eq_foldl] at alike
  rw [ofSamples_eq, ofSamples_eq]
  generalize left : Meter.outcome ((Meter.recordAll rule
    ((first :: filled).map fun observation => observation.sample resource)).run Meter.fresh) =
      leftState at alike ⊢
  generalize right : Meter.outcome ((Meter.recordAll rule
    ((first :: rest).map fun observation => observation.sample resource)).run Meter.fresh) =
      rightState at alike ⊢
  cases leftState with
  | error overload =>
      cases rightState with
      | error other => rw [Except.error.inj alike]
      | ok meter => cases alike
  | ok meter =>
      cases rightState with
      | error overload => cases alike
      | ok other =>
          -- The meters differ at most in where they stopped, which the last observation tells.
          have stop : meter.stop = other.stop := by
            rw [Meter.recordAll_ok left, Meter.recordAll_ok right, Meter.stop_foldl,
              Meter.stop_foldl, List.getLast?_map, List.getLast?_map, List.getLast?_cons,
              List.getLast?_cons, fills.getLast?_eq]
          rw [Meter.eq_of_stoppedAt (Except.ok.inj alike) stop]

end Runs

section Overload

def overload? : Except (Overload α) (Meter α) → Option (Overload α)
  | .error overload => some overload
  | .ok _ => none

theorem ignoresRefills_overload (rule : Rule α) (resource : Resource) :
    IgnoresRefills Observation.moveTo (recordNext rule resource) overload?
      (fun state item => overload? state = none → ¬ rule.limit < item.inUse resource)
      fun _ => True where
  moves {left right} next alike := by
    cases left with
    | error overload =>
        cases right with
        | error other => exact alike
        | ok meter => cases alike
    | ok meter =>
        cases right with
        | error overload => cases alike
        | ok other =>
            by_cases above : rule.limit < next.inUse resource
            · rw [recordNext_error above, recordNext_error above]
            · rw [recordNext_ok above, recordNext_ok above]
              rfl
  enters state next _ within := by
    cases state with
    | error overload => cases within
    | ok meter =>
        intro above
        rw [recordNext_error above] at within
        cases within
  stays {state item} point here := by
    cases state with
    | error overload => exact ⟨rfl, here⟩
    | ok meter =>
        have within := here rfl
        rw [recordNext_ok (by rwa [Observation.inUse_moveTo])]
        exact ⟨rfl, fun _ => within⟩

theorem overload?_eq_some_iff {state : Except (Overload α) (Meter α)} {overload : Overload α} :
    overload? state = some overload ↔ state = .error overload := by
  cases state <;> simp [overload?]

theorem ofSamples_error_fills {resource : Resource}
    (fills : Fills Observation.moveTo first rest filled) (overload : Overload α) :
    ofSamples rule ((first :: filled).map fun observation => observation.sample resource) =
        .error overload ↔
      ofSamples rule ((first :: rest).map fun observation => observation.sample resource) =
        .error overload := by
  have ignores := ignoresRefills_overload rule resource
  have alike := fills.view_foldl ignores (fun _ _ => trivial) rfl
    (ignores.enters (.ok Meter.fresh) trivial)
  rw [← List.foldl_cons, ← List.foldl_cons, ← recordAll_eq_foldl, ← recordAll_eq_foldl] at alike
  rw [ofSamples_error_iff_recordAll, ofSamples_error_iff_recordAll, ← overload?_eq_some_iff,
    ← overload?_eq_some_iff, alike]

end Overload

end Load

def Track.refilled (track : Track α) : Track α :=
  { track with observations := track.onGrid }

/-- The figures of a host are the same when they are taken from what it shows on the grid, those
of the memory if it is told in numbers. -/
structure Track.HasSameFigures (track other : Track Float) : Prop where
  occupancy : track.occupancy = other.occupancy
  slots : ∀ limit, track.load .slots limit = other.load .slots limit
  memory : (∀ observation ∈ other.observations, observation.memoryUsed.isNaN = false) →
    ∀ limit, track.load .memory limit = other.load .memory limit
  memoryOverload : ∀ limit overload, track.load .memory limit = .error overload ↔
    other.load .memory limit = .error overload

namespace Timeline

variable {window : Window Float} {hosts : HostMap (List (Observation Float))}
  {timeline : Timeline Float}

theorem hasSameFigures_refilled (windowFinite : window.IsFinite)
    (timesFinite : ∀ observations ∈ hosts.values, ∀ observation ∈ observations,
      observation.time.isFinite = true)
    (timesSigned : ∀ observations ∈ hosts.values, ∀ observation ∈ observations,
      observation.time ≠ -0)
    (built : Timeline.build window hosts = .ok timeline) (shows : timeline.ShowsAll hosts)
    {track : Track Float} (member : track ∈ timeline.tracks) :
    track.refilled.HasSameFigures track := by
  have signed : ∀ time ∈ hosts.values.flatMap fun observations =>
      observations.map Observation.time, time ≠ -0 := by
    intro time found
    obtain ⟨observations, hostMember, timeMember⟩ := List.mem_flatMap.mp found
    obtain ⟨observation, observed, rfl⟩ := List.mem_map.mp timeMember
    exact timesSigned observations hostMember observation observed
  obtain ⟨first, rest, filled, observed, onGrid, fills⟩ := shows.exists_fills built
    windowFinite.isComparable
    (fun time found => Binary64.le_self_of_isFinite (isFinite_times timesFinite time found))
    (fun left leftMember right rightMember same =>
      Binary64.eq_of_ne_negative_zero (signed left leftMember) (signed right rightMember) same)
    member
  constructor
  · simp only [Track.refilled, Track.occupancy, observed, onGrid]
    exact Occupancy.ofObservations_fills PowerState.isAvailable fills
  · intro limit
    simp only [Track.refilled, Track.load, observed, onGrid]
    exact Load.ofSamples_fills rfl
      (fun _ _ => OrderedScalar.beq_self (Binary64.le_self_ofInt _)) fills
  · intro numbers limit
    rw [observed] at numbers
    simp only [Track.refilled, Track.load, observed, onGrid]
    refine Load.ofSamples_fills rfl (fun observation found => ?_) fills
    have number := numbers observation found
    exact Binary64.beq_iff.mpr ⟨number, number, rfl⟩
  · intro limit overload
    simp only [Track.refilled, Track.load, observed, onGrid]
    exact Load.ofSamples_error_fills fills overload

/-- Two hosts that are idle throughout.  Only the second one is observed in between. -/
def seenTwice (memoryUsed : Float) : HostMap (List (Observation Float)) :=
  let idle (time : Float) : Observation Float :=
    { time, state := .idle, slots := 4, slotsUsed := 0, memory := 1024, memoryUsed }
  HostMap.ofList [("a", [idle 0, idle 0.9]), ("b", [idle 0, idle 0.2, idle 0.9])]

theorem hasSameFigures_refilled_seen_twice : ∃ timeline, ∃ track ∈ timeline.tracks,
    Timeline.build {} (seenTwice 512) = .ok timeline ∧ timeline.ShowsAll (seenTwice 512) ∧
      track.observations.length = 2 ∧ track.onGrid.length = 3 ∧
      track.refilled.HasSameFigures track := by
  have windowFinite : Window.IsFinite {} := ⟨by simp, by simp⟩
  have checked : (do
      let timeline ← (Timeline.build {} (seenTwice 512)).toOption
      let track ← timeline.tracks.head?
      return decide (timeline.ShowsAll (seenTwice 512) ∧ track.observations.length = 2 ∧
        track.onGrid.length = 3)) = some true := by decide +kernel
  obtain ⟨timeline, made, checked⟩ := Option.bind_eq_some_iff.mp checked
  obtain ⟨track, found, checked⟩ := Option.bind_eq_some_iff.mp checked
  obtain ⟨shows, seen, shown⟩ := of_decide_eq_true (Option.some.inj checked)
  have built := eq_ok_of_toOption made
  have member := List.mem_of_head? found
  exact ⟨timeline, track, member, built, shows, seen, shown,
    hasSameFigures_refilled windowFinite (by decide +kernel) (by decide +kernel) built shows member⟩

/-- Memory that is not told as a number.  Filling splits the run between the observations, and
adding up the parts rounds differently. -/
theorem exists_refilled_load_ne : ∃ timeline, ∃ track ∈ timeline.tracks,
    (∀ observations ∈ (seenTwice Float.nan).values, ∀ observation ∈ observations,
      observation.time.isFinite = true ∧ observation.time ≠ -0) ∧
      Timeline.build {} (seenTwice Float.nan) = .ok timeline ∧
      timeline.ShowsAll (seenTwice Float.nan) ∧
      track.refilled.load .memory (timeline.capacity .memory).max ≠
        track.load .memory (timeline.capacity .memory).max := by
  have checked : (do
      let timeline ← (Timeline.build {} (seenTwice Float.nan)).toOption
      let track ← timeline.tracks.head?
      return decide (timeline.ShowsAll (seenTwice Float.nan) ∧
        (track.refilled.load .memory (timeline.capacity .memory).max).toOption.map
            Load.acceptedTime ≠
          (track.load .memory (timeline.capacity .memory).max).toOption.map
            Load.acceptedTime)) = some true := by decide +kernel
  obtain ⟨timeline, made, checked⟩ := Option.bind_eq_some_iff.mp checked
  obtain ⟨track, found, checked⟩ := Option.bind_eq_some_iff.mp checked
  obtain ⟨shows, differ⟩ := of_decide_eq_true (Option.some.inj checked)
  exact ⟨timeline, track, List.mem_of_head? found, by decide +kernel, eq_ok_of_toOption made,
    shows, fun same => differ (by rw [same])⟩

end Timeline

end HostTimeline
