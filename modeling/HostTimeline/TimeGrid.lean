import HostTimeline.Fences
import HostTimeline.Window

/-!
The grid of times that all hosts are resampled onto: the distinct observed times
within the window, without outliers, with both ends of the window as its first
and last point.
-/

namespace HostTimeline

structure TimeGrid (α : Type) where
  span : Span α
  points : List α
deriving Repr

namespace TimeGrid

variable {α : Type} [Scalar α]

/-- The observed times within the span, ascending, each value once. -/
def distinctTimes (span : Span α) (times : List α) : List α :=
  (Scalar.sort (times.filter span.contains)).eraseReps

/-- The ends of the span around the inner points of the given ones. -/
def betweenEnds (span : Span α) (points : List α) : List α :=
  if span.start == span.stop then
    [span.start]
  else
    span.start :: (points.tail.dropLast ++ [span.stop])

def ofSpan (span : Span α) (times : List α) : TimeGrid α :=
  { span, points := betweenEnds span (withoutOutliers (distinctTimes span times)) }

def build (window : Window α) (times : List α) : Except (WindowError α) (TimeGrid α) := do
  let span ← window.resolve times
  return ofSpan span times

end TimeGrid

end HostTimeline
