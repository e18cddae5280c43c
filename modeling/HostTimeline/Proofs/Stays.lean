import HostTimeline.Occupancy
import Mathlib.Algebra.BigOperators.Group.List.Basic
import Mathlib.Algebra.Field.Rat
import Mathlib.Data.List.DropRight
import Mathlib.Data.List.SplitBy

/-!
The stays of a host against a reference that looks at all of its history at once.  What was seen
since the meter last started anew is cut into runs of one state, and each run lasts until the
next one begins (`Occupancy.ofReadings_eq_summary`).
-/

namespace HostTimeline.Occupancy

/-- A state that a host was seen in. -/
structure Sighting (α : Type) where
  state : PowerState
  time : α

/-- A stay that has ended. -/
structure EndedStay (α : Type) extends Stay α where
  stop : α

section Reference

variable {α : Type}

def Reading.sighting? : Reading α → Option (Sighting α)
  | .restart => none
  | .observed time state => some { state, time }

/-- What was seen since the last restart. -/
def sinceRestart (readings : List (Reading α)) : List (Sighting α) :=
  (readings.rtakeWhile fun reading => reading.sighting?.isSome).filterMap Reading.sighting?

/-- The longest pieces of a history in which the state stays the same. -/
def runs (sightings : List (Sighting α)) : List (List (Sighting α)) :=
  sightings.splitBy fun left right => decide (left.state = right.state)

/-- The first sighting of each run. -/
def arrivals (sightings : List (Sighting α)) : List (Sighting α) :=
  (runs sightings).filterMap List.head?

/-- Each arrival stays until the next one, and the last of them until a given time. -/
def staysUntil (stop : α) (arrivals : List (Sighting α)) : List (EndedStay α) :=
  List.zipWith (fun arrival stop => { state := arrival.state, since := arrival.time, stop })
    arrivals (arrivals.tail.map Sighting.time ++ [stop])

def stays (sightings : List (Sighting α)) : List (EndedStay α) :=
  match sightings.getLast? with
  | none => []
  | some last => staysUntil last.time (arrivals sightings)

def EndedStay.length [Sub α] (stay : EndedStay α) : α :=
  stay.stop - stay.since

end Reference

/-- How long some of the stays lasted together. -/
def timeOfStays (counts : EndedStay Rat → Bool) (stays : List (EndedStay Rat)) : Rat :=
  ((stays.filter counts).map EndedStay.length).sum

/-- What there is to say about a history, read off its stays. -/
def summary (accepts : PowerState → Rat → Bool) (sightings : List (Sighting Rat)) :
    Occupancy Rat :=
  let duration (state : PowerState) :=
    timeOfStays (fun stay => decide (state = stay.state)) (stays sightings)
  let available := timeOfStays (fun stay => accepts stay.state stay.since) (stays sightings)
  let start := sightings.head?.map Sighting.time
  let stop := sightings.getLast?.map Sighting.time
  { inState := fun state =>
      { stays := (stays sightings).countP fun stay => decide (state = stay.state)
        duration := duration state
        ofAvailable := percentage (duration state) available
        ofTotal := percentage (duration state) (between start stop) }
    start, stop, available }

section Runs

variable {α : Type}

/-- The runs are the one way to cut a history into pieces of a single state each, such that the
state changes from each piece to the next. -/
theorem runs_eq_iff {sightings : List (Sighting α)} {pieces : List (List (Sighting α))} :
    runs sightings = pieces ↔ sightings = pieces.flatten ∧ [] ∉ pieces ∧
      (∀ piece ∈ pieces, piece.IsChain fun left right => left.state = right.state) ∧
      pieces.IsChain fun piece next => ∃ (some : piece ≠ []) (more : next ≠ []),
        (piece.getLast some).state ≠ (next.head more).state := by
  simp only [runs, List.splitBy_eq_iff, decide_eq_true_eq, decide_eq_false_iff_not, ne_eq]

theorem runs_concat_of_changed {sightings : List (Sighting α)} {next : Sighting α}
    (changed : ∀ last ∈ sightings.getLast?, last.state ≠ next.state) :
    runs (sightings ++ [next]) = runs sightings ++ [[next]] := by
  refine List.splitBy_append_cons [] fun last found => ?_
  exact decide_eq_false (changed last found)

theorem runs_concat_of_same (sightings : List (Sighting α)) {last next : Sighting α}
    (same : last.state = next.state) : ∃ earlier run,
    runs (sightings ++ [last]) = earlier ++ [run ++ [last]] ∧
      runs (sightings ++ [last] ++ [next]) = earlier ++ [run ++ [last] ++ [next]] := by
  obtain ⟨flat, full, equal, apart⟩ := runs_eq_iff.mp (Eq.refl (runs (sightings ++ [last])))
  rcases List.eq_nil_or_concat (runs (sightings ++ [last])) with none | ⟨earlier, final, split⟩
  · simp [none] at flat
  rw [List.concat_eq_append] at split
  rw [split] at flat full equal apart
  rcases List.eq_nil_or_concat final with rfl | ⟨run, latest, rfl⟩
  · simp at full
  rw [List.concat_eq_append] at *
  have ends : last = latest := by
    simpa [← List.append_assoc] using congrArg List.getLast? flat
  subst ends
  refine ⟨earlier, run, split, runs_eq_iff.mpr ⟨?_, ?_, ?_, ?_⟩⟩
  · rw [flat]
    simp
  · simpa using full
  · intro piece member
    rcases List.mem_append.mp member with before | here
    · exact equal piece (List.mem_append_left _ before)
    · obtain rfl := List.mem_singleton.mp here
      refine List.isChain_append.mpr ⟨equal _ (by simp), List.isChain_singleton _, ?_⟩
      simpa using same
  · obtain ⟨before, -, joined⟩ := List.isChain_append.mp apart
    refine List.isChain_append.mpr ⟨before, List.isChain_singleton _, ?_⟩
    intro piece found other here
    obtain ⟨some, more, differ⟩ := joined piece found _ rfl
    obtain rfl : other = run ++ [last] ++ [next] := by simpa [eq_comm] using here
    refine ⟨some, by simp, ?_⟩
    rwa [List.head_append_of_ne_nil more]

theorem arrivals_concat_of_changed {sightings : List (Sighting α)} {next : Sighting α}
    (changed : ∀ last ∈ sightings.getLast?, last.state ≠ next.state) :
    arrivals (sightings ++ [next]) = arrivals sightings ++ [next] := by
  simp [arrivals, runs_concat_of_changed changed]

theorem arrivals_concat_of_same {sightings : List (Sighting α)} {last next : Sighting α}
    (same : last.state = next.state) :
    arrivals (sightings ++ [last] ++ [next]) = arrivals (sightings ++ [last]) := by
  obtain ⟨earlier, run, before, after⟩ := runs_concat_of_same sightings same
  rw [arrivals, arrivals, before, after]
  cases run <;> simp

theorem staysUntil_concat (stop : α) (earlier : List (Sighting α)) (last : Sighting α) :
    staysUntil stop (earlier ++ [last]) = staysUntil last.time earlier ++
      [{ state := last.state, since := last.time, stop }] := by
  cases earlier with
  | nil => rfl
  | cons first rest =>
      have lengths : (first :: rest).length = (rest.map Sighting.time ++ [last.time]).length := by
        simp
      simp only [staysUntil, List.cons_append, List.tail_cons, List.map_append, List.map_cons,
        List.map_nil]
      rw [← List.cons_append, List.zipWith_append lengths]
      rfl

end Runs

/-- How long the stays lasted together: the end of each is the beginning of the next. -/
theorem sum_staysUntil (stop : Rat) (first : Sighting Rat) (rest : List (Sighting Rat)) :
    ((staysUntil stop (first :: rest)).map EndedStay.length).sum = stop - first.time := by
  induction rest using List.reverseRecOn generalizing stop with
  | nil => simp [staysUntil, EndedStay.length]
  | append_singleton rest last ih =>
      rw [← List.cons_append, staysUntil_concat, List.map_append, List.sum_append, ih]
      simp [EndedStay.length]

theorem timeOfStays_concat (counts : EndedStay Rat → Bool) (ended : List (EndedStay Rat))
    (stay : EndedStay Rat) : timeOfStays counts (ended ++ [stay]) =
      timeOfStays counts ended + if counts stay then stay.length else 0 := by
  cases counted : counts stay <;> simp [timeOfStays, counted]

namespace Meter

variable {accepts : PowerState → Rat → Bool}

/-- What a meter has counted are these stays. -/
structure Counts (accepts : PowerState → Rat → Bool) (meter : Meter Rat)
    (ended : List (EndedStay Rat)) : Prop where
  stays : ∀ state, meter.stays state = ended.countP fun stay => decide (state = stay.state)
  durations : ∀ state,
    meter.durations state = timeOfStays (fun stay => decide (state = stay.state)) ended
  available :
    meter.available = timeOfStays (fun stay => accepts stay.state stay.since) ended

theorem counts_fresh : fresh.Counts accepts [] where
  stays _ := rfl
  durations _ := rfl
  available := rfl

/-- The current stay is counted when it ends. -/
theorem Counts.close {meter : Meter Rat} {ended : List (EndedStay Rat)}
    (counted : meter.Counts accepts ended) {stay : Stay Rat} (going : meter.current = some stay)
    (stop : Rat) : (meter.close accepts stop).Counts accepts (ended ++ [{ stay with stop }]) := by
  obtain ⟨stays, durations, available⟩ := counted
  refine ⟨fun state => ?_, fun state => ?_, ?_⟩
  · simp only [Meter.close, going, stays, List.countP_append, List.countP_singleton,
      decide_eq_true_eq]
    split <;> simp
  · simp only [Meter.close, going, durations, timeOfStays_concat, decide_eq_true_eq,
      EndedStay.length]
    split <;> simp
  · simp only [Meter.close, going, available, timeOfStays_concat, EndedStay.length]
    split <;> simp

def see (accepts : PowerState → Rat → Bool) (meter : Meter Rat) (sighting : Sighting Rat) :
    Meter Rat :=
  meter.observe accepts sighting.time sighting.state

/-- A meter that has seen a history, of which it counted every stay but the last. -/
structure HasSeen (accepts : PowerState → Rat → Bool) (meter : Meter Rat)
    (earlier : List (Sighting Rat)) (last : Sighting Rat) : Prop where
  start : meter.start = (earlier ++ [last]).head?.map Sighting.time
  stop : meter.stop = some last.time
  current : ∃ before arrival, arrivals (earlier ++ [last]) = before ++ [arrival] ∧
    arrival.state = last.state ∧
    meter.current = some { state := arrival.state, since := arrival.time } ∧
    meter.Counts accepts (staysUntil arrival.time before)

theorem hasSeen_fresh (only : Sighting Rat) :
    (fresh.see accepts only).HasSeen accepts [] only where
  start := rfl
  stop := rfl
  current := ⟨[], only, rfl, rfl, rfl, { @counts_fresh accepts with }⟩

section Step

variable {meter : Meter Rat} {stay : Stay Rat} {next : Sighting Rat}
  (going : meter.current = some stay)
include going

theorem see_of_same (same : stay.state = next.state) :
    meter.see accepts next =
      { meter with start := meter.start <|> some next.time, stop := some next.time } := by
  simp [see, observe, continues, going, same]

theorem see_of_changed (changed : stay.state ≠ next.state) :
    meter.see accepts next =
      { meter.close accepts next.time with
        start := meter.start <|> some next.time
        current := some { state := next.state, since := next.time }
        stop := some next.time } := by
  simp [see, observe, continues, close, going, changed]

end Step

theorem HasSeen.see {meter : Meter Rat} {earlier : List (Sighting Rat)} {last : Sighting Rat}
    (seen : meter.HasSeen accepts earlier last) (next : Sighting Rat) :
    (meter.see accepts next).HasSeen accepts (earlier ++ [last]) next := by
  obtain ⟨start, stop, before, arrival, split, here, going, counted⟩ := seen
  have started : (meter.start <|> some next.time) =
      (earlier ++ [last] ++ [next]).head?.map Sighting.time := by
    rw [start]
    cases earlier <;> rfl
  by_cases same : last.state = next.state
  · rw [see_of_same going (here.trans same)]
    exact ⟨started, rfl, before, arrival, (arrivals_concat_of_same same).trans split,
      here.trans same, going, { counted with }⟩
  · rw [see_of_changed going (here.trans_ne same)]
    have arrived : arrivals (earlier ++ [last] ++ [next]) = before ++ [arrival] ++ [next] := by
      rw [arrivals_concat_of_changed (by simpa using same), split]
    refine ⟨started, rfl, before ++ [arrival], next, arrived, rfl, rfl, ?_⟩
    rw [staysUntil_concat]
    exact { counted.close going next.time with }

theorem hasSeen_foldl (accepts : PowerState → Rat → Bool) (earlier : List (Sighting Rat))
    (last : Sighting Rat) :
    ((earlier ++ [last]).foldl (see accepts) fresh).HasSeen accepts earlier last := by
  induction earlier using List.reverseRecOn generalizing last with
  | nil => exact hasSeen_fresh last
  | append_singleton earlier previous ih =>
      rw [List.foldl_append]
      exact (ih previous).see last

end Meter

theorem stays_concat (earlier : List (Sighting Rat)) (last : Sighting Rat) :
    stays (earlier ++ [last]) = staysUntil last.time (arrivals (earlier ++ [last])) := by
  simp [stays]

theorem finish_foldl (accepts : PowerState → Rat → Bool) (sightings : List (Sighting Rat)) :
    (sightings.foldl (Meter.see accepts) Meter.fresh).finish accepts =
      summary accepts sightings := by
  rcases List.eq_nil_or_concat sightings with rfl | ⟨earlier, last, rfl⟩
  · rfl
  rw [List.concat_eq_append]
  obtain ⟨start, stop, before, arrival, split, -, going, counted⟩ :=
    Meter.hasSeen_foldl accepts earlier last
  generalize (earlier ++ [last]).foldl (Meter.see accepts) Meter.fresh = meter at *
  have closed := counted.close going last.time
  rw [← staysUntil_concat, ← split, ← stays_concat] at closed
  have ends : (earlier ++ [last]).getLast?.map Sighting.time = some last.time := by simp
  simp only [Meter.finish, summary, stop, start, ends, closed.stays, closed.durations,
    closed.available]

/-- Everything before the last restart is forgotten. -/
theorem foldl_read (accepts : PowerState → Rat → Bool) (readings : List (Reading Rat)) :
    readings.foldl (Meter.read accepts) Meter.fresh =
      (sinceRestart readings).foldl (Meter.see accepts) Meter.fresh := by
  induction readings using List.reverseRecOn with
  | nil => rfl
  | append_singleton earlier last ih =>
      rw [List.foldl_append]
      cases last with
      | restart =>
          have forgotten : sinceRestart (earlier ++ [Reading.restart]) = [] := by
            simp [sinceRestart, Reading.sighting?]
          rw [forgotten]
          rfl
      | observed time state =>
          have goesOn : sinceRestart (earlier ++ [Reading.observed time state]) =
              sinceRestart earlier ++ [⟨state, time⟩] := by
            simp [sinceRestart, Reading.sighting?]
          rw [goesOn, List.foldl_append, ← ih]
          rfl

theorem sum_only (here : PowerState) (value : Rat) :
    (PowerState.all.map fun state => if state = here then value else 0).sum = value := by
  cases here <;> simp [PowerState.all]

/-- Each stay is counted in the one state it was in. -/
theorem sum_timeOfStays (stays : List (EndedStay Rat)) :
    (PowerState.all.map fun state =>
      timeOfStays (fun stay => decide (state = stay.state)) stays).sum =
        (stays.map EndedStay.length).sum := by
  induction stays using List.reverseRecOn with
  | nil => simp [timeOfStays]
  | append_singleton stays last ih =>
      simp only [timeOfStays_concat, decide_eq_true_eq]
      rw [List.sum_map_add, ih, sum_only]
      simp

theorem head?_arrivals (sightings : List (Sighting Rat)) :
    (arrivals sightings).head? = sightings.head? := by
  obtain ⟨flat, full, -⟩ := runs_eq_iff.mp (Eq.refl (runs sightings))
  unfold arrivals
  cases pieces : runs sightings with
  | nil =>
      rw [pieces] at flat
      simp [flat]
  | cons piece rest =>
      rw [pieces] at flat full
      cases piece with
      | nil => simp at full
      | cons first _ => simp [flat]

theorem sum_stays (sightings : List (Sighting Rat)) :
    ((stays sightings).map EndedStay.length).sum =
      between (sightings.head?.map Sighting.time) (sightings.getLast?.map Sighting.time) := by
  rcases List.eq_nil_or_concat sightings with rfl | ⟨earlier, last, rfl⟩
  · rfl
  rw [List.concat_eq_append, ← head?_arrivals, stays_concat]
  cases arrived : arrivals (earlier ++ [last]) with
  | nil =>
      have none := head?_arrivals (earlier ++ [last])
      simp [arrived] at none
  | cons first rest =>
      rw [sum_staysUntil]
      simp [between]

/-- What is told of a host is the summary of what was seen since the last restart, with all its
states, and together they last from the first sighting to the last. -/
theorem ofReadings_eq_summary (accepts : PowerState → Rat → Bool) (readings : List (Reading Rat)) :
    ofReadings accepts readings = summary accepts (sinceRestart readings) ∧
      PowerState.all.Nodup ∧ (∀ state, state ∈ PowerState.all) ∧
      (PowerState.all.map fun state =>
        ((ofReadings accepts readings).inState state).duration).sum =
          (ofReadings accepts readings).total := by
  have summarized : ofReadings accepts readings = summary accepts (sinceRestart readings) := by
    rw [ofReadings, foldl_read, finish_foldl]
  refine ⟨summarized, by decide, PowerState.mem_all, ?_⟩
  rw [summarized]
  simp only [summary, total, sum_timeOfStays, sum_stays]

end HostTimeline.Occupancy
