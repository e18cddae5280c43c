import HostTimeline.Load
import HostTimeline.Observation
import HostTimeline.Occupancy
import HostTimeline.StepFunction
import HostTimeline.TimeGrid

/-!
One host on a span of time.  Its observations are clipped to the span and made to
reach from its start to its stop, and are then repeated on the grid that all hosts
share.  Sums over time are taken from the clipped observations.
-/

namespace HostTimeline

/-- One host: its observations within the span, and one for each grid point. -/
structure Track (α : Type) where
  name : String
  observations : List (Observation α)
  onGrid : List (Observation α)

variable {α : Type} [Scalar α]

namespace Span

/-- The observations within the span, ascending by time, with the first moved to
its start and the last to its stop.  A single observation is repeated at the stop;
without any the host is unknown throughout. -/
def clip (span : Span α) (observations : List (Observation α)) : List (Observation α) :=
  let within := observations.filter fun observation => span.contains observation.time
  match Observation.sortByTime within with
  | [] => span.ends.map fun time => Observation.vacant time .unknown
  | [only] => span.ends.map only.moveTo
  | first :: second :: rest =>
      let last := (second :: rest).getLast (List.cons_ne_nil second rest)
      first.moveTo span.start :: ((second :: rest).dropLast ++ [last.moveTo span.stop])

end Span

namespace Observation

/-- The observations repeated on a grid.  A host is off before its first one. -/
def fill (grid : List α) (observations : List (Observation α)) : List (Observation α) :=
  carryForward Observation.time moveTo (vacant Scalar.zero .off) observations grid

def sample (observation : Observation α) (resource : Resource) : Sample α :=
  { time := observation.time, value := observation.inUse resource, state := observation.state }

end Observation

namespace Track

def build (grid : TimeGrid α) (name : String) (observations : List (Observation α)) : Track α :=
  let clipped := grid.span.clip observations
  { name, observations := clipped, onGrid := Observation.fill grid.points clipped }

/-- The most of a resource that the host offered. -/
def capacity (track : Track α) (resource : Resource) : α :=
  Scalar.maxWithZero (track.observations.map fun observation => observation.offered resource)

def occupancy (track : Track α) : Occupancy α :=
  Occupancy.ofObservations (fun state _ => state.isAvailable) track.observations

def load (track : Track α) (resource : Resource) (limit : α) : Except (Overload α) (Load α) :=
  Load.ofSamples
    { limit, same := Load.sameValueAndState, accepts := PowerState.isAvailable }
    (track.observations.map fun observation => observation.sample resource)

end Track

end HostTimeline
