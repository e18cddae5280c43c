import HostTimeline.Chart
import HostTimeline.HostMap
import HostTimeline.Track

/-!
The hosts of a cluster on one grid, the charts drawn of them, and the figures for
each host and for the cluster.
-/

namespace HostTimeline

/-- The hosts ascending by name, on one grid. -/
structure Timeline (α : Type) where
  grid : TimeGrid α
  tracks : List (Track α)

/-- What the hosts of a cluster offer of one resource: the most each reported, the
most of any host, and the sum over the hosts, each at its most. -/
structure Capacity (α : Type) where
  hosts : List (String × α)
  max : α
  total : α

/-- One series per host of what it offers and of what it uses. -/
structure ResourceCharts (α : Type) where
  offered : Chart String α
  used : Chart String α

/-- How much of each resource one host used. -/
structure HostLoad (α : Type) where
  memory : Load α
  slots : Load α

/-- A host that used more of a resource than any host offers. -/
structure HostOverload (α : Type) where
  host : String
  resource : Resource
  overload : Overload α

variable {α : Type} [Scalar α]

/-- Positions on a chart are in milliseconds. -/
def toMilliseconds (time : α) : α :=
  time * Scalar.ofInt 1000

namespace Timeline

def build (window : Window α) (hosts : HostMap (List (Observation α))) :
    Except (WindowError α) (Timeline α) := do
  let times := hosts.values.flatMap fun observations => observations.map Observation.time
  let grid ← TimeGrid.build window times
  return { grid, tracks := hosts.sorted.map fun host => Track.build grid host.1 host.2 }

def capacity (timeline : Timeline α) (resource : Resource) : Capacity α :=
  let hosts := timeline.tracks.map fun track => (track.name, track.capacity resource)
  { hosts
    max := Scalar.maxWithZero (hosts.map Prod.snd)
    total := Scalar.sum (hosts.map Prod.snd) }

/-- How many hosts count as being in a state at a grid point. -/
def hostsIn (onGrid : List (Array (Observation α))) (state : PowerState) (index : Nat) : Nat :=
  onGrid.countP fun observations =>
    (observations[index]?).any fun observation => decide (observation.state.base = state)

/-- The number of hosts in each state, at every grid point. -/
def stateChart (timeline : Timeline α) : Chart PowerState α :=
  let onGrid := timeline.tracks.map fun track => track.onGrid.toArray
  Chart.align (PowerState.all.map fun state =>
    (state, timeline.grid.points.mapIdx fun index time =>
      { x := toMilliseconds time, y := Scalar.ofInt (hostsIn onGrid state index) }))

/-- What a host offers at one time: nothing while it is not available. -/
def offeredNow (resource : Resource) (observation : Observation α) : α :=
  if observation.state.isAvailable then observation.offered resource else Scalar.zero

/-- One series per host of a quantity, at every grid point. -/
def hostChart (timeline : Timeline α) (quantity : Observation α → α) : Chart String α :=
  Chart.align (timeline.tracks.map fun track =>
    (track.name, track.onGrid.map fun observation =>
      { x := toMilliseconds observation.time, y := quantity observation }))

def resourceCharts (timeline : Timeline α) (resource : Resource) : ResourceCharts α :=
  { offered := timeline.hostChart (offeredNow resource)
    used := timeline.hostChart fun observation => observation.inUse resource }

def occupancies (timeline : Timeline α) : List (String × Occupancy α) :=
  timeline.tracks.map fun track => (track.name, track.occupancy)

/-- The load of one host, against the most it may use of each resource. -/
def hostLoad (mostMemory mostSlots : α) (track : Track α) :
    Except (HostOverload α) (HostLoad α) := do
  let measure (resource : Resource) (most : α) : Except (HostOverload α) (Load α) :=
    match track.load resource most with
    | .error overload => .error { host := track.name, resource, overload }
    | .ok load => .ok load
  let memory ← measure .memory mostMemory
  let slots ← measure .slots mostSlots
  return { memory, slots }

/-- The load of every host, against the most that any host offers; the first overload
in order of names decides. -/
def loads (timeline : Timeline α) : Except (HostOverload α) (List (String × HostLoad α)) :=
  let mostMemory := (timeline.capacity .memory).max
  let mostSlots := (timeline.capacity .slots).max
  timeline.tracks.mapM fun track => do
    let load ← hostLoad mostMemory mostSlots track
    return (track.name, load)

end Timeline

end HostTimeline
