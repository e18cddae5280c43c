import HostTimeline.Observation

/-!
How long a host stayed in each state.  Consecutive observations in one state make
one stay, which lasts until the first observation in another state, or until the
last observation.  So the durations of all states add up to the observed time.
-/

namespace HostTimeline

/-- The stays in one state. -/
structure StateTime (α : Type) where
  stays : Nat
  duration : α
  /-- Percentage of the available time, with one decimal, if there was any. -/
  ofAvailable : Option α
  /-- Percentage of the observed time, with one decimal, if it has a length. -/
  ofTotal : Option α
deriving Repr

structure Occupancy (α : Type) where
  inState : PowerState → StateTime α
  start : Option α
  stop : Option α
  available : α

namespace Occupancy

variable {α : Type} [Scalar α]

/-- Time between two known ends. -/
def between : Option α → Option α → α
  | some start, some stop => stop - start
  | _, _ => Scalar.zero

def total (occupancy : Occupancy α) : α :=
  between occupancy.start occupancy.stop

/-- A percentage with one decimal; of nothing there is none. -/
def percentage (part whole : α) : Option α :=
  if Scalar.zero < whole then
    some (Scalar.round (Scalar.ofInt 1000 * part / whole) / Scalar.ofInt 10)
  else
    none

/-- A stay that has not ended yet. -/
structure Stay (α : Type) where
  state : PowerState
  since : α

/-- What is known while observations come in: the stays that have ended, and the
one that goes on. -/
structure Meter (α : Type) where
  current : Option (Stay α)
  stays : PowerState → Nat
  durations : PowerState → α
  start : Option α
  stop : Option α
  available : α

namespace Meter

def fresh : Meter α where
  current := none
  stays := fun _ => 0
  durations := fun _ => Scalar.zero
  start := none
  stop := none
  available := Scalar.zero

/-- Ends the current stay at a time.  A stay counts as available time if it is
accepted by its state and the time it began. -/
def close (accepts : PowerState → α → Bool) (meter : Meter α) (time : α) : Meter α :=
  match meter.current with
  | none => meter
  | some stay =>
      let length := time - stay.since
      { meter with
        stays := fun state =>
          if state = stay.state then meter.stays state + 1 else meter.stays state
        durations := fun state =>
          if state = stay.state then meter.durations state + length else meter.durations state
        available :=
          if accepts stay.state stay.since then meter.available + length else meter.available }

/-- Whether an observation in `state` continues the current stay. -/
def continues (meter : Meter α) (state : PowerState) : Bool :=
  match meter.current with
  | none => false
  | some stay => decide (stay.state = state)

def observe (accepts : PowerState → α → Bool) (meter : Meter α) (time : α) (state : PowerState) :
    Meter α :=
  let meter := { meter with start := meter.start <|> some time }
  let meter :=
    if meter.continues state then
      meter
    else
      { meter.close accepts time with current := some { state, since := time } }
  { meter with stop := some time }

/-- Ends the last stay at the time of the last observation. -/
def finish (accepts : PowerState → α → Bool) (meter : Meter α) : Occupancy α :=
  let closed :=
    match meter.stop with
    | none => meter
    | some stop => meter.close accepts stop
  let total := between meter.start meter.stop
  { inState := fun state =>
      { stays := closed.stays state
        duration := closed.durations state
        ofAvailable := percentage (closed.durations state) closed.available
        ofTotal := percentage (closed.durations state) total }
    start := meter.start
    stop := meter.stop
    available := closed.available }

end Meter

/-- What happens to a meter: it starts anew, or the host is observed. -/
inductive Reading (α : Type) where
  | restart
  | observed (time : α) (state : PowerState)

def Meter.read (accepts : PowerState → α → Bool) (meter : Meter α) : Reading α → Meter α
  | .restart => Meter.fresh
  | .observed time state => meter.observe accepts time state

def ofReadings (accepts : PowerState → α → Bool) (readings : List (Reading α)) : Occupancy α :=
  (readings.foldl (Meter.read accepts) Meter.fresh).finish accepts

def ofObservations (accepts : PowerState → α → Bool) (observations : List (Observation α)) :
    Occupancy α :=
  ofReadings accepts (observations.map fun observation =>
    .observed observation.time observation.state)

end Occupancy

end HostTimeline
