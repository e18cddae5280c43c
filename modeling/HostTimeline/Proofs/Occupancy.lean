import HostTimeline.Occupancy
import HostTimeline.Proofs.Number.SignedZero
import HostTimeline.Proofs.Steps

/-!
The stays of a host depend on its steps alone.
-/

namespace HostTimeline.Occupancy

open Observation

namespace Meter

section Summary

variable {α : Type} [Scalar α]

def take (accepts : PowerState → Bool) (meter : Meter α) (observation : Observation α) : Meter α :=
  meter.observe (fun state _ => accepts state) observation.time observation.state

/-- All that a meter knows but the time of the last observation. -/
def settled (meter : Meter α) : Meter α :=
  { meter with stop := none }

/-- Whether the current stay is in the state of an observation. -/
def IsIn (meter : Meter α) (observation : Observation α) : Prop :=
  (∃ stay, meter.current = some stay ∧ stay.state = observation.state) ∧
    ∃ start, meter.start = some start

theorem take_of_continues {accepts : PowerState → Bool} {meter : Meter α}
    {observation : Observation α} (continued : meter.continues observation.state = true) :
    meter.take accepts observation =
      { meter with
        start := meter.start <|> some observation.time
        stop := some observation.time } := by
  have same : ({ meter with start := meter.start <|> some observation.time } : Meter α).continues
      observation.state = true := continued
  unfold take observe
  simp only [same, if_true]

theorem take_of_changed {accepts : PowerState → Bool} {meter : Meter α}
    {observation : Observation α} (changed : meter.continues observation.state = false) :
    meter.take accepts observation =
      { ({ meter with start := meter.start <|> some observation.time } : Meter α).close
          (fun state _ => accepts state) observation.time with
        current := some { state := observation.state, since := observation.time }
        stop := some observation.time } := by
  have same : ({ meter with start := meter.start <|> some observation.time } : Meter α).continues
      observation.state = false := changed
  unfold take observe
  simp only [same, if_false, Bool.false_eq_true]

theorem settled_take (accepts : PowerState → Bool) (meter : Meter α)
    (observation : Observation α) :
    (meter.take accepts observation).settled = (meter.settled.take accepts observation).settled := by
  obtain ⟨current, stays, durations, start, stop, available⟩ := meter
  cases current with
  | none => rfl
  | some stay =>
      by_cases same : stay.state = observation.state
      · simp [take, observe, continues, settled, same]
      · simp [take, observe, continues, settled, close, same]

/-- The current stay is in the state of the latest observation. -/
theorem isIn_take (accepts : PowerState → Bool) (meter : Meter α) (next : Observation α) :
    (meter.take accepts next).IsIn next := by
  obtain ⟨current, stays, durations, start, stop, available⟩ := meter
  cases current with
  | none => cases start <;> simp [take, observe, continues, close, IsIn]
  | some stay =>
      by_cases same : stay.state = next.state
      · cases start <;> simp [take, observe, continues, IsIn, ← same]
      · cases start <;> simp [take, observe, continues, close, IsIn, same]

/-- An observation in the state of the current stay moves nothing but its end. -/
theorem take_of_isIn (accepts : PowerState → Bool) {meter : Meter α} {kept next : Observation α}
    (here : meter.IsIn kept) (state : next.state = kept.state) :
    (meter.take accepts next).settled = meter.settled ∧ (meter.take accepts next).IsIn kept := by
  obtain ⟨current, stays, durations, start, stop, available⟩ := meter
  obtain ⟨⟨stay, current, same⟩, begun, start⟩ := here
  simp only at current start
  subst current start
  simp [take, observe, continues, settled, IsIn, state, same]

theorem ignoresRepeats (accepts : PowerState → Bool) :
    IgnoresRepeats (take accepts) (fun left right : Meter α => left.settled = right.settled)
      IsIn where
  refl _ := rfl
  trans := Eq.trans
  moves {left right} next same := by
    rw [settled_take, same, ← settled_take]
  enters meter next _ := isIn_take accepts meter next
  stays here agrees := take_of_isIn accepts here agrees.state

end Summary

/-- Two meters that show the same, for times that are equal by value. -/
structure Alike (left right : Meter Float) : Prop where
  current : Option.Rel (fun stay other => stay.state = other.state ∧
    Scalar.Alike stay.since other.since) left.current right.current
  stays : left.stays = right.stays
  durations : left.durations = right.durations
  start : Option.Rel (fun time other => (time == other) = true) left.start right.start
  available : left.available = right.available
  plainDurations : ∀ state, Binary64.IsPlain (left.durations state)
  plainAvailable : Binary64.IsPlain left.available

theorem Alike.close (accepts : PowerState → Bool) {left right : Meter Float}
    (alike : left.Alike right) {time other : Float} (times : Scalar.Alike time other) :
    (left.close (fun state _ => accepts state) time).Alike
      (right.close (fun state _ => accepts state) other) := by
  obtain ⟨current, stays, durations, start, stop, available⟩ := left
  obtain ⟨otherCurrent, otherStays, otherDurations, otherStart, otherStop, otherAvailable⟩ := right
  obtain ⟨currents, sameStays, sameDurations, starts, sameAvailable, plainDurations,
    plainAvailable⟩ := alike
  simp only at currents sameStays sameDurations starts sameAvailable plainDurations plainAvailable
  subst sameStays sameDurations sameAvailable
  cases currents with
  | none => exact ⟨.none, rfl, rfl, starts, rfl, plainDurations, plainAvailable⟩
  | @some stay otherStay both =>
      obtain ⟨state, since⟩ := both
      have lengths := Binary64.alike_sub times since
      refine ⟨.some ⟨state, since⟩, ?_, ?_, starts, ?_, ?_, ?_⟩
      · simp only [Meter.close, state]
      · funext shown
        simp only [Meter.close, state]
        split
        · exact Binary64.add_eq_of_alike (plainDurations shown) lengths
        · rfl
      · simp only [Meter.close, state]
        split
        · exact Binary64.add_eq_of_alike plainAvailable lengths
        · rfl
      · intro shown
        simp only [Meter.close]
        split
        · exact Binary64.isPlain_add (plainDurations shown) _
        · exact plainDurations shown
      · simp only [Meter.close]
        split
        · exact Binary64.isPlain_add plainAvailable _
        · exact plainAvailable

theorem alike_fresh : Alike fresh fresh where
  current := .none
  stays := rfl
  durations := rfl
  start := .none
  available := rfl
  plainDurations _ := Binary64.isPlain_zero
  plainAvailable := Binary64.isPlain_zero

theorem Alike.continues {left right : Meter Float} (alike : left.Alike right)
    {state other : PowerState} (same : state = other) :
    left.continues state = right.continues other := by
  obtain ⟨current, stays, durations, start, stop, available⟩ := left
  obtain ⟨otherCurrent, otherStays, otherDurations, otherStart, otherStop, otherAvailable⟩ := right
  have currents := alike.current
  simp only at currents
  cases currents with
  | none => rfl
  | some both => simp only [Meter.continues, both.1, same]

theorem Alike.take (accepts : PowerState → Bool) {left right : Meter Float}
    (alike : left.Alike right) {next other : Observation Float} (same : next.Matches other) :
    (left.take accepts next).Alike (right.take accepts other) := by
  have begun := rel_orElse alike.start same.time
  have started : ({ left with start := left.start <|> some next.time } : Meter Float).Alike
      { right with start := right.start <|> some other.time } :=
    { alike with start := begun }
  cases continued : right.continues other.state with
  | true =>
      rw [take_of_continues continued,
        take_of_continues ((alike.continues same.agrees.state).trans continued)]
      exact { started with }
  | false =>
      rw [take_of_changed continued,
        take_of_changed ((alike.continues same.agrees.state).trans continued)]
      have closed := started.close accepts (.inr same.time)
      exact { closed with current := .some ⟨same.agrees.state, .inr same.time⟩ }

end Meter

/-- The same stays, from and to times that are equal by value. -/
structure Matches (left right : Occupancy Float) : Prop where
  inState : left.inState = right.inState
  available : left.available = right.available
  start : (left.start == right.start) = true
  stop : (left.stop == right.stop) = true

theorem percentage_eq (part : Float) {whole other : Float} (wholes : Scalar.Alike whole other) :
    percentage part whole = percentage part other :=
  Binary64.ite_positive_eq wholes
    (fun whole => some (Scalar.round (Scalar.ofInt 1000 * part / whole) / Scalar.ofInt 10)) none

theorem beq_of_rel {left right : Option Float}
    (related : Option.Rel (fun time other => (time == other) = true) left right) :
    (left == right) = true := by
  cases related with
  | none => rfl
  | some same => exact same

theorem alike_between {start stop otherStart otherStop : Option Float}
    (starts : Option.Rel (fun time other => (time == other) = true) start otherStart)
    (stops : Option.Rel (fun time other => (time == other) = true) stop otherStop) :
    Scalar.Alike (between start stop) (between otherStart otherStop) := by
  cases starts with
  | none => exact .inl rfl
  | some sameStart =>
      cases stops with
      | none => exact .inl rfl
      | some sameStop => exact Binary64.alike_sub (.inr sameStop) (.inr sameStart)

/-- The meter once the last stay has ended. -/
def Meter.closed {α : Type} [Scalar α] (accepts : PowerState → Bool) (meter : Meter α) : Meter α :=
  match meter.stop with
  | none => meter
  | some stop => meter.close (fun state _ => accepts state) stop

theorem Meter.finish_inState {α : Type} [Scalar α] (accepts : PowerState → Bool)
    (meter : Meter α) (state : PowerState) :
    (meter.finish fun state _ => accepts state).inState state =
      { stays := (meter.closed accepts).stays state
        duration := (meter.closed accepts).durations state
        ofAvailable := percentage ((meter.closed accepts).durations state)
          (meter.closed accepts).available
        ofTotal := percentage ((meter.closed accepts).durations state)
          (between meter.start meter.stop) } :=
  rfl

theorem Meter.Alike.closed (accepts : PowerState → Bool) {left right : Meter Float}
    (alike : left.Alike right)
    (stops : Option.Rel (fun time other => (time == other) = true) left.stop right.stop) :
    (left.closed accepts).Alike (right.closed accepts) := by
  unfold Meter.closed
  generalize left.stop = stop at stops
  generalize right.stop = other at stops
  cases stops with
  | none => exact alike
  | some same => exact alike.close accepts (.inr same)

theorem Meter.Alike.finish (accepts : PowerState → Bool) {left right : Meter Float}
    (alike : left.Alike right)
    (stops : Option.Rel (fun time other => (time == other) = true) left.stop right.stop) :
    (left.finish fun state _ => accepts state).Matches
      (right.finish fun state _ => accepts state) := by
  have totals := alike_between alike.start stops
  have closed := alike.closed accepts stops
  refine ⟨funext fun state => ?_, closed.available, beq_of_rel alike.start, beq_of_rel stops⟩
  rw [finish_inState, finish_inState, closed.stays, closed.durations, closed.available,
    percentage_eq _ totals]

theorem ofObservations_eq {α : Type} [Scalar α] (accepts : PowerState → Bool)
    (observations : List (Observation α)) :
    ofObservations (fun state _ => accepts state) observations =
      (observations.foldl (Meter.take accepts) Meter.fresh).finish fun state _ => accepts state := by
  unfold ofObservations ofReadings
  rw [List.foldl_map]
  rfl

theorem stop_foldl {α : Type} [Scalar α] (accepts : PowerState → Bool)
    (observations : List (Observation α)) :
    (observations.foldl (Meter.take accepts) Meter.fresh).stop =
      observations.getLast?.map Observation.time := by
  rcases List.eq_nil_or_concat observations with rfl | ⟨earlier, last, rfl⟩
  · rfl
  · rw [List.concat_eq_append, List.foldl_append, List.getLast?_concat]
    rfl

/-- Hosts with the same steps up to the same time have the same stays. -/
theorem matches_of_sameSteps (accepts : PowerState → Bool) {left right : List (Observation Float)}
    (leftComparable : ∀ observation ∈ left, observation.IsComparable)
    (rightComparable : ∀ observation ∈ right, observation.IsComparable)
    (same : SameSteps left right)
    (stops : Option.Rel (fun time other => (time == other) = true)
      (left.getLast?.map Observation.time) (right.getLast?.map Observation.time)) :
    (ofObservations (fun state _ => accepts state) left).Matches
      (ofObservations (fun state _ => accepts state) right) := by
  have ignores := Meter.ignoresRepeats (α := Float) accepts
  have stepped : ((steps left).foldl (Meter.take accepts) Meter.fresh).Alike
      ((steps right).foldl (Meter.take accepts) Meter.fresh) :=
    List.rel_foldl (fun _ _ alike _ _ matched => alike.take accepts matched) Meter.alike_fresh same
  have settled : ((left.foldl (Meter.take accepts) Meter.fresh).settled).Alike
      ((right.foldl (Meter.take accepts) Meter.fresh).settled) := by
    rw [ignores.foldl_steps leftComparable, ignores.foldl_steps rightComparable]
    exact { stepped with }
  have alike : (left.foldl (Meter.take accepts) Meter.fresh).Alike
      (right.foldl (Meter.take accepts) Meter.fresh) := { settled with }
  rw [ofObservations_eq, ofObservations_eq]
  refine alike.finish accepts ?_
  rw [stop_foldl, stop_foldl]
  exact stops

end HostTimeline.Occupancy
