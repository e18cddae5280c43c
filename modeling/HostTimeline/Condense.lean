import HostTimeline.HostMap
import HostTimeline.Observation

/-!
Dropping observations that repeat what is known.  A host's observations are read
as a step function of the fields that the criteria select; an observation that
equals the one retained before it adds nothing and is dropped.
-/

namespace HostTimeline

/-- The fields that count, and whether times are rounded to whole seconds. -/
structure Criteria where
  state : Bool := false
  memoryUsed : Bool := false
  memory : Bool := false
  slotsUsed : Bool := false
  slots : Bool := false
  wholeSeconds : Bool := false
deriving Repr, DecidableEq

namespace Criteria

/-- Every field counts. -/
def everyField : Criteria :=
  { state := true, memoryUsed := true, memory := true, slotsUsed := true, slots := true }

variable {α : Type} [Scalar α]

/-- Whether two observations are equal on every selected field. -/
def agree (criteria : Criteria) (left right : Observation α) : Bool :=
  (!criteria.state || decide (left.state = right.state)) &&
  (!criteria.memoryUsed || left.memoryUsed == right.memoryUsed) &&
  (!criteria.memory || left.memory == right.memory) &&
  (!criteria.slotsUsed || decide (left.slotsUsed = right.slotsUsed)) &&
  (!criteria.slots || decide (left.slots = right.slots))

/-- The observation at the time the criteria give it. -/
def place (criteria : Criteria) (observation : Observation α) : Observation α :=
  if criteria.wholeSeconds then
    observation.moveTo (Scalar.round observation.time)
  else
    observation

/-- What is retained from `kept` on.  A later observation at the time of the one
before it takes its place. -/
def condenseFrom (criteria : Criteria) (kept : Observation α) :
    List (Observation α) → List (Observation α)
  | [] => [kept]
  | next :: rest =>
      if criteria.agree next kept then
        condenseFrom criteria kept rest
      else if kept.time == next.time then
        condenseFrom criteria next rest
      else
        kept :: condenseFrom criteria next rest

def condenseSorted (criteria : Criteria) : List (Observation α) → List (Observation α)
  | [] => []
  | first :: rest => condenseFrom criteria first rest

/-- The observations of one host that are retained, ascending by time. -/
def condense (criteria : Criteria) (observations : List (Observation α)) :
    List (Observation α) :=
  condenseSorted criteria ((Observation.sortByTime observations).map criteria.place)

/-- How many observations of one host are dropped. -/
def dropped (criteria : Criteria) (observations : List (Observation α)) : Nat :=
  observations.length - (condense criteria observations).length

end Criteria

/-- The retained observations of every host, and how many were dropped in all. -/
def condenseHosts {α : Type} [Scalar α] (criteria : Criteria)
    (hosts : HostMap (List (Observation α))) : HostMap (List (Observation α)) × Nat :=
  (hosts.map fun _ observations => criteria.condense observations,
    (hosts.values.map criteria.dropped).foldl (· + ·) 0)

end HostTimeline
