import HostTimeline.PowerState
import HostTimeline.Scalar

/-!
One observation of one host, and the two resources that observations report on.
-/

namespace HostTimeline

/-- The state and the resources of a host at one time, in seconds since the
epoch. -/
structure Observation (α : Type) where
  time : α
  state : PowerState
  slots : Int
  slotsUsed : Int
  memory : α
  memoryUsed : α
deriving Repr

/-- A resource that hosts offer and use. -/
inductive Resource where
  | slots
  | memory
deriving Repr, DecidableEq

namespace Observation

variable {α : Type} [Scalar α]

/-- A host that offers and uses nothing. -/
def vacant (time : α) (state : PowerState) : Observation α :=
  { time, state, slots := 0, slotsUsed := 0, memory := Scalar.zero, memoryUsed := Scalar.zero }

/-- The same observation at another time. -/
def moveTo (observation : Observation α) (time : α) : Observation α :=
  { observation with time }

def offered (observation : Observation α) : Resource → α
  | .slots => Scalar.ofInt observation.slots
  | .memory => observation.memory

def inUse (observation : Observation α) : Resource → α
  | .slots => Scalar.ofInt observation.slotsUsed
  | .memory => observation.memoryUsed

/-- Ascending by time; observations at the same time keep their order, so the
last of them is the latest. -/
def sortByTime (observations : List (Observation α)) : List (Observation α) :=
  Scalar.sortOn Observation.time observations

end Observation

end HostTimeline
