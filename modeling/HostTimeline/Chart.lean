import HostTimeline.StepFunction

/-!
Series of points that are drawn together.  Aligning a chart gives every series
one point at every x of any series, so that they can be stacked; between its
points a series keeps its latest value, and before the first it is zero.
-/

namespace HostTimeline

structure Point (α : Type) where
  x : α
  y : α
deriving Repr

/-- Series by key, on a shared axis. -/
structure Chart (κ α : Type) where
  axis : List α
  series : List (κ × List (Point α))
deriving Repr

namespace Chart

variable {κ α : Type} [Scalar α]

/-- Every x of any series, ascending, each value once. -/
def axisOf (series : List (κ × List (Point α))) : List α :=
  (Scalar.sort (series.flatMap fun entry => entry.2.map Point.x)).eraseReps

/-- The series as a step function, read at each point of the axis. -/
def resample (axis : List α) (points : List (Point α)) : List (Point α) :=
  carryForward Point.x (fun point x => { point with x }) { x := Scalar.zero, y := Scalar.zero }
    (Scalar.sortOn Point.x points) axis

def align (series : List (κ × List (Point α))) : Chart κ α :=
  let axis := axisOf series
  { axis, series := series.map fun entry => (entry.1, resample axis entry.2) }

/-- The points after `kept` that differ from the last retained point in x and in
y both. -/
def thinAfter (kept : Point α) : List (Point α) → List (Point α)
  | [] => []
  | point :: rest =>
      if kept.x == point.x || kept.y == point.y then
        thinAfter kept rest
      else
        point :: thinAfter point rest

/-- The first point, and those that `thinAfter` retains after it, in ascending
order of x. -/
def thinSorted : List (Point α) → List (Point α)
  | [] => []
  | point :: rest => point :: thinAfter point rest

/-- Thins a series, optionally with its x values rounded to integers. -/
def thin (discrete : Bool) (points : List (Point α)) : List (Point α) :=
  let place (point : Point α) : Point α :=
    if discrete then { point with x := Scalar.round point.x } else point
  thinSorted ((Scalar.sortOn Point.x points).map place)

/-- The chart of the thinned series. -/
def alignThinned (discrete : Bool) (series : List (κ × List (Point α))) : Chart κ α :=
  align (series.map fun entry => (entry.1, thin discrete entry.2))

def find? [DecidableEq κ] (chart : Chart κ α) (key : κ) : Option (List (Point α)) :=
  chart.series.lookup key

end Chart

end HostTimeline
