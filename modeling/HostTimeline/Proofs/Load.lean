import HostTimeline.Proofs.Number.SignedZero
import HostTimeline.Proofs.Runs
import HostTimeline.Proofs.Steps

/-!
The load of a host depends on its steps alone, and on the limit by value.
-/

namespace HostTimeline

open Observation OrderedScalar

theorem Binary64.le_self_ofInt (value : Int) : (Scalar.ofInt value : Float) ≤ Scalar.ofInt value :=
  le_iff.mpr ⟨isNaN_ofInt value, isNaN_ofInt value, Int.le_refl _⟩

theorem Observation.inUse_beq {left right : Observation Float} (agrees : left.Agrees right)
    (resource : Resource) : (left.inUse resource == right.inUse resource) = true := by
  cases resource with
  | memory => exact agrees.memoryUsed
  | slots =>
      simp only [inUse, agrees.slotsUsed]
      exact beq_self (Binary64.le_self_ofInt _)

namespace Load

/-- How the load of a host is measured. -/
def hostRule (limit : Float) : Rule Float :=
  { limit, same := sameValueAndState, accepts := PowerState.isAvailable }

namespace Meter

def take (limit : Float) (resource : Resource) (meter : Meter Float)
    (observation : Observation Float) : Meter Float :=
  meter.accept (hostRule limit) (observation.sample resource)

/-- All that a meter knows but the time of the last observation. -/
def settled (meter : Meter Float) : Meter Float :=
  { meter with stop := Scalar.zero }

/-- Whether the current run is one of samples like that of an observation. -/
def IsIn (resource : Resource) (meter : Meter Float) (observation : Observation Float) : Prop :=
  (∃ run, meter.run = some run ∧
    sameValueAndState run (observation.sample resource) = true) ∧
  ∃ start, meter.start = some start

section Take

variable {limit : Float} {resource : Resource} (meter : Meter Float)
  {observation : Observation Float} {run : Sample Float}

theorem take_of_none (none : meter.run = none) : meter.take limit resource observation =
    { meter with
      run := some (observation.sample resource)
      start := meter.start <|> some observation.time
      stop := observation.time } :=
  accept_of_none meter none

theorem take_of_same (going : meter.run = some run)
    (same : sameValueAndState run (observation.sample resource) = true) :
    meter.take limit resource observation =
      { meter with
        start := meter.start <|> some observation.time
        stop := observation.time } :=
  accept_of_same meter going same

theorem take_of_changed (going : meter.run = some run)
    (changed : sameValueAndState run (observation.sample resource) = false) :
    meter.take limit resource observation =
      { ({ meter with start := meter.start <|> some observation.time } : Meter Float).close
          (hostRule limit) run observation.time with
        run := some (observation.sample resource)
        stop := observation.time } :=
  accept_of_changed meter going changed

end Take

theorem settled_take (limit : Float) (resource : Resource) (meter : Meter Float)
    (observation : Observation Float) :
    (meter.take limit resource observation).settled =
      (meter.settled.take limit resource observation).settled :=
  congrArg settled (accept_stoppedAt (hostRule limit) meter Scalar.zero _).symm

theorem ignoresRepeats (limit : Float) (resource : Resource) :
    IgnoresRepeats (take limit resource) (fun left right => left.settled = right.settled)
      (IsIn resource) where
  refl _ := rfl
  trans := Eq.trans
  moves {left right} next same := by
    rw [settled_take, same, ← settled_take]
  enters meter next comparable := by
    have own : (hostRule limit).same (next.sample resource) (next.sample resource) = true :=
      sameValueAndState_iff.mpr ⟨inUse_beq comparable.agrees resource, rfl⟩
    have entered := isOf_accept meter own
    exact ⟨entered.run, entered.start⟩
  stays := by
    intro meter kept next here agrees
    have within : meter.IsOf (hostRule limit) (kept.sample resource) := ⟨here.1, here.2⟩
    have alike (run : Sample Float) (same : sameValueAndState run (kept.sample resource) = true) :
        sameValueAndState run (next.sample resource) = true := by
      obtain ⟨value, state⟩ := sameValueAndState_iff.mp same
      exact sameValueAndState_iff.mpr ⟨beq_trans value (inUse_beq agrees.symm resource),
        state.trans agrees.state.symm⟩
    obtain ⟨unmoved, still⟩ := accept_of_isOf within alike Scalar.zero
    exact ⟨unmoved, still.run, still.start⟩

/-- Two runs that go on in one state with one value. -/
structure RunsAlike (run other : Sample Float) : Prop where
  time : Scalar.Alike run.time other.time
  value : Scalar.Alike run.value other.value
  state : run.state = other.state

/-- Two meters that show the same, for times and values that are equal by value. -/
structure Alike (left right : Meter Float) : Prop where
  run : Option.Rel RunsAlike left.run right.run
  start : Option.Rel Scalar.Alike left.start right.start
  area : left.area = right.area
  acceptedArea : left.acceptedArea = right.acceptedArea
  acceptedTime : left.acceptedTime = right.acceptedTime
  histogram : left.histogram = right.histogram
  plainArea : Binary64.IsPlain left.area
  plainAcceptedArea : Binary64.IsPlain left.acceptedArea
  plainAcceptedTime : Binary64.IsPlain left.acceptedTime
  plainHistogram : ∀ place, Binary64.IsPlain (left.histogram place)

theorem alike_fresh : Alike fresh fresh where
  run := .none
  start := .none
  area := rfl
  acceptedArea := rfl
  acceptedTime := rfl
  histogram := rfl
  plainArea := Binary64.isPlain_zero
  plainAcceptedArea := Binary64.isPlain_zero
  plainAcceptedTime := Binary64.isPlain_zero
  plainHistogram _ := Binary64.isPlain_zero

end Meter

theorem alike_width {limit other : Float} (limits : Scalar.Alike limit other) :
    Scalar.Alike (hostRule limit).width (hostRule other).width :=
  Binary64.alike_div limits _

theorem quarter_eq {value other width : Float} (values : Scalar.Alike value other) :
    quarter value width = quarter other width := by
  have positions := Binary64.alike_div values width
  unfold quarter
  simp only [lt_congr (.inl rfl) positions]

/-- The time that a run adds to the quarters of the values. -/
theorem histogram_eq {limit other : Float} (limits : Scalar.Alike limit other)
    {run otherRun : Sample Float} (runs : Meter.RunsAlike run otherRun) {length otherLength : Float}
    (lengths : Scalar.Alike length otherLength) {histogram : Quarter → Float}
    (plain : ∀ place, Binary64.IsPlain (histogram place)) :
    (if (hostRule limit).width == Scalar.zero then histogram
      else fun place => if place = quarter run.value (hostRule limit).width then
        histogram place + length else histogram place) =
    (if (hostRule other).width == Scalar.zero then histogram
      else fun place => if place = quarter otherRun.value (hostRule other).width then
        histogram place + otherLength else histogram place) := by
  have widths := alike_width limits
  have zeros := beq_congr widths (.inl (rfl : (Scalar.zero : Float) = Scalar.zero))
  cases zero : (hostRule limit).width == Scalar.zero with
  | true =>
      rw [zero] at zeros
      rw [if_pos rfl, ← zeros, if_pos rfl]
  | false =>
      rw [zero] at zeros
      rw [← zeros, if_neg Bool.false_ne_true, if_neg Bool.false_ne_true,
        ← Binary64.eq_of_alike widths (Bool.eq_false_iff.mp zero), quarter_eq runs.value]
      funext place
      rw [Binary64.add_eq_of_alike (plain place) lengths]

theorem Meter.Alike.close {limit other : Float} (limits : Scalar.Alike limit other)
    {left right : Meter Float} (alike : left.Alike right) {run otherRun : Sample Float}
    (runs : RunsAlike run otherRun) {time otherTime : Float}
    (times : Scalar.Alike time otherTime) :
    (left.close (hostRule limit) run time).Alike
      (right.close (hostRule other) otherRun otherTime) := by
  have lengths := Binary64.alike_sub times runs.time
  have areas := Binary64.alike_mul lengths runs.value
  have area : left.area + (time - run.time) * run.value =
      right.area + (otherTime - otherRun.time) * otherRun.value := by
    rw [← alike.area]
    exact Binary64.add_eq_of_alike alike.plainArea areas
  have acceptedArea : left.acceptedArea + (time - run.time) * run.value =
      right.acceptedArea + (otherTime - otherRun.time) * otherRun.value := by
    rw [← alike.acceptedArea]
    exact Binary64.add_eq_of_alike alike.plainAcceptedArea areas
  have acceptedTime : left.acceptedTime + (time - run.time) =
      right.acceptedTime + (otherTime - otherRun.time) := by
    rw [← alike.acceptedTime]
    exact Binary64.add_eq_of_alike alike.plainAcceptedTime lengths
  have accepted : (hostRule limit).accepts run.state = (hostRule other).accepts otherRun.state := by
    rw [runs.state]
    rfl
  unfold Meter.close
  simp only
  rw [accepted]
  split
  · refine
      { run := alike.run
        start := alike.start
        area := area
        acceptedArea := acceptedArea
        acceptedTime := acceptedTime
        histogram := ?_
        plainArea := Binary64.isPlain_add alike.plainArea _
        plainAcceptedArea := Binary64.isPlain_add alike.plainAcceptedArea _
        plainAcceptedTime := Binary64.isPlain_add alike.plainAcceptedTime _
        plainHistogram := ?_ }
    · rw [← alike.histogram]
      exact histogram_eq limits runs lengths alike.plainHistogram
    · intro place
      simp only
      split
      · exact alike.plainHistogram place
      · beta_reduce
        split
        · exact Binary64.isPlain_add (alike.plainHistogram place) _
        · exact alike.plainHistogram place
  · exact { alike with area := area, plainArea := Binary64.isPlain_add alike.plainArea _ }

theorem Meter.Alike.take {limit other : Float} (limits : Scalar.Alike limit other)
    (resource : Resource) {left right : Meter Float} (alike : left.Alike right)
    {next otherNext : Observation Float} (same : next.Matches otherNext) :
    (left.take limit resource next).Alike (right.take other resource otherNext) := by
  have begun := rel_orElse alike.start (Or.inr same.time : Scalar.Alike next.time otherNext.time)
  have values := inUse_beq same.agrees resource
  have sampled : RunsAlike (next.sample resource) (otherNext.sample resource) :=
    ⟨.inr same.time, .inr values, same.agrees.state⟩
  have runs := alike.run
  cases going : left.run with
  | none =>
      rw [going] at runs
      have otherGoing : right.run = none := by
        cases found : right.run with
        | none => rfl
        | some run => rw [found] at runs; cases runs
      rw [take_of_none left going, take_of_none right otherGoing]
      exact { alike with run := .some sampled, start := begun }
  | some run =>
      rw [going] at runs
      cases otherGoing : right.run with
      | none => rw [otherGoing] at runs; cases runs
      | some otherRun =>
          rw [otherGoing] at runs
          cases runs with
          | some matched =>
              have goesOn : sameValueAndState run (next.sample resource) =
                  sameValueAndState otherRun (otherNext.sample resource) := by
                unfold sameValueAndState
                rw [beq_congr matched.value sampled.value, matched.state, sampled.state]
              cases continued : sameValueAndState run (next.sample resource) with
              | true =>
                  rw [take_of_same left going continued,
                    take_of_same right otherGoing (goesOn ▸ continued)]
                  exact { alike with start := begun }
              | false =>
                  rw [take_of_changed left going continued,
                    take_of_changed right otherGoing (goesOn ▸ continued)]
                  have started : ({ left with start := left.start <|> some next.time } :
                      Meter Float).Alike
                      { right with start := right.start <|> some otherNext.time } :=
                    { alike with start := begun }
                  have closed := started.close limits matched (.inr same.time)
                  exact { closed with run := .some sampled }

namespace Meter

/-- The meter once the last run has ended. -/
def closed (limit : Float) (meter : Meter Float) : Meter Float :=
  match meter.run with
  | none => meter
  | some run => meter.close (hostRule limit) run meter.stop

/-- The time that a meter has measured. -/
def measured (meter : Meter Float) : Float :=
  match meter.start with
  | none => Scalar.zero
  | some start => meter.stop - start

theorem finish_eq (limit : Float) (meter : Meter Float) :
    meter.finish (hostRule limit) =
      { area := (meter.closed limit).area
        mean := if Scalar.zero < meter.measured then
          some ((meter.closed limit).area / meter.measured) else none
        acceptedMean := if Scalar.zero < (meter.closed limit).acceptedTime then
          some ((meter.closed limit).acceptedArea / (meter.closed limit).acceptedTime) else none
        acceptedArea := (meter.closed limit).acceptedArea
        acceptedTime := (meter.closed limit).acceptedTime
        histogram := (meter.closed limit).histogram } := by
  unfold finish closed measured
  cases meter.run <;> cases meter.start <;> rfl

theorem Alike.closed {limit other : Float} (limits : Scalar.Alike limit other)
    {left right : Meter Float} (alike : left.Alike right)
    (stops : Scalar.Alike left.stop right.stop) :
    (left.closed limit).Alike (right.closed other) := by
  have runs := alike.run
  unfold Meter.closed
  generalize left.run = run at runs
  generalize right.run = otherRun at runs
  cases runs with
  | none => exact alike
  | some matched => exact alike.close limits matched stops

theorem alike_measured {left right : Meter Float} (alike : left.Alike right)
    (stops : Scalar.Alike left.stop right.stop) : Scalar.Alike left.measured right.measured := by
  have starts := alike.start
  unfold measured
  generalize left.start = start at starts
  generalize right.start = otherStart at starts
  cases starts with
  | none => exact .inl rfl
  | some same => exact Binary64.alike_sub stops same

theorem Alike.finish_eq {limit other : Float} (limits : Scalar.Alike limit other)
    {left right : Meter Float} (alike : left.Alike right)
    (stops : Scalar.Alike left.stop right.stop) :
    left.finish (hostRule limit) = right.finish (hostRule other) := by
  have closed := alike.closed limits stops
  have mean := Binary64.ite_positive_eq (alike_measured alike stops)
    (fun length => some ((right.closed other).area / length)) none
  rw [Meter.finish_eq, Meter.finish_eq, closed.area, closed.acceptedArea, closed.acceptedTime,
    closed.histogram, mean]

end Meter

theorem stop_foldl (limit : Float) (resource : Resource) (observations : List (Observation Float)) :
    (observations.foldl (Meter.take limit resource) Meter.fresh).stop =
      (observations.getLast?.map Observation.time).getD Scalar.zero := by
  have stop := Meter.stop_foldl (hostRule limit)
    (observations.map fun observation => observation.sample resource) Meter.fresh
  rw [List.foldl_map, List.getLast?_map, Option.map_map] at stop
  exact stop

/-- Hosts with the same steps up to the same time have the same load. -/
theorem eq_of_sameSteps {limit other : Float} (limits : Scalar.Alike limit other)
    (resource : Resource) {left right : List (Observation Float)}
    (leftComparable : ∀ observation ∈ left, observation.IsComparable)
    (rightComparable : ∀ observation ∈ right, observation.IsComparable)
    (same : SameSteps left right)
    (stops : Option.Rel (fun time other => (time == other) = true)
      (left.getLast?.map Observation.time) (right.getLast?.map Observation.time))
    {load otherLoad : Load Float}
    (done : ofSamples (hostRule limit)
      (left.map fun observation => observation.sample resource) = .ok load)
    (otherDone : ofSamples (hostRule other)
      (right.map fun observation => observation.sample resource) = .ok otherLoad) :
    load = otherLoad := by
  have stepped : ((steps left).foldl (Meter.take limit resource) Meter.fresh).Alike
      ((steps right).foldl (Meter.take other resource) Meter.fresh) :=
    List.rel_foldl (fun _ _ alike _ _ matched => alike.take limits resource matched)
      Meter.alike_fresh same
  have settled : ((left.foldl (Meter.take limit resource) Meter.fresh).settled).Alike
      ((right.foldl (Meter.take other resource) Meter.fresh).settled) := by
    rw [(Meter.ignoresRepeats limit resource).foldl_steps leftComparable,
      (Meter.ignoresRepeats other resource).foldl_steps rightComparable]
    exact { stepped with }
  have alike : (left.foldl (Meter.take limit resource) Meter.fresh).Alike
      (right.foldl (Meter.take other resource) Meter.fresh) := { settled with }
  have stopped : Scalar.Alike (left.foldl (Meter.take limit resource) Meter.fresh).stop
      (right.foldl (Meter.take other resource) Meter.fresh).stop := by
    rw [stop_foldl, stop_foldl]
    generalize left.getLast?.map Observation.time = stop at stops
    generalize right.getLast?.map Observation.time = otherStop at stops
    cases stops with
    | none => exact .inl rfl
    | some sameStop => exact .inr sameStop
  rw [ofSamples_ok done, ofSamples_ok otherDone, List.foldl_map, List.foldl_map]
  exact alike.finish_eq limits stopped

end Load

end HostTimeline
