import HostTimeline.Condense
import HostTimeline.Document.Basic
import HostTimeline.Timeline

/-!
All that is shown about one document.
-/

namespace HostTimeline

structure Report (α : Type) where
  timeline : Timeline α
  stateChart : Chart PowerState α
  occupancies : List (String × Occupancy α)
  loads : List (String × HostLoad α)
  /-- How many observations were dropped before the timeline was made. -/
  dropped : Nat

inductive ReportError (α : Type) where
  | window (error : WindowError α)
  | overload (error : HostOverload α)

variable {α : Type} [Scalar α]

namespace Document

/-- The document with the observations that the criteria retain, and the number of
the others. -/
def condense (document : Document α) : Option Criteria → Document α × Nat
  | none => (document, 0)
  | some criteria =>
      let (hosts, dropped) := condenseHosts criteria document.hosts
      ({ document with hosts }, dropped)

end Document

/-- The ends of `window` take the place of those the document asks for. -/
def Report.build (document : Document α) (window : Window α) (criteria : Option Criteria) :
    Except (ReportError α) (Report α) := do
  let (document, dropped) := document.condense criteria
  let timeline ← (Timeline.build (document.window.override window) document.hosts).mapError .window
  let loads ← timeline.loads.mapError .overload
  return {
    timeline
    stateChart := timeline.stateChart
    occupancies := timeline.occupancies
    loads
    dropped }

end HostTimeline
