import HostTimeline.Scalar

/-!
The time window of a report.  A `Window` is what was asked for, either end of
which may be left open; a `Span` is what remains after it has been reconciled
with the times that were observed.
-/

namespace HostTimeline

/-- A requested window; an absent end is taken from the data. -/
structure Window (α : Type) where
  earliest : Option α := none
  latest : Option α := none
deriving Repr

/-- A stretch of time with both ends known and included. -/
structure Span (α : Type) where
  start : α
  stop : α
deriving Repr

inductive WindowError (α : Type) where
  /-- There is no observation, and the window has an open end. -/
  | incomplete
  | empty (start stop : α)
deriving Repr

variable {α : Type} [Scalar α]

namespace Span

def contains (span : Span α) (time : α) : Bool :=
  decide (span.start ≤ time) && decide (time ≤ span.stop)

def duration (span : Span α) : α :=
  span.stop - span.start

/-- Both ends, or the single point of a span without length. -/
def ends (span : Span α) : List α :=
  if span.start < span.stop then [span.start, span.stop] else [span.start]

/-- The span from the first to the last of the given times. -/
def covering? : List α → Option (Span α)
  | [] => none
  | time :: rest => some (rest.foldl extend { start := time, stop := time })
where
  extend (span : Span α) (time : α) : Span α :=
    { start := if Scalar.precedes span.start time then span.start else time
      stop := if Scalar.precedes time span.stop then span.stop else time }

def ofEnds (start stop : α) : Except (WindowError α) (Span α) :=
  if stop < start then .error (.empty start stop) else .ok { start, stop }

end Span

namespace Window

/-- Ends given in `other` take the place of those in `window`. -/
def override (window other : Window α) : Window α :=
  { earliest := other.earliest <|> window.earliest
    latest := other.latest <|> window.latest }

/-- The requested latest time.  Zero or less stands for no request. -/
def latestAsked (window : Window α) : Option α :=
  window.latest.filter fun latest => decide (Scalar.zero < latest)

/-- Narrows the observed times to the window: an end that lies outside them, or is
open, resolves to the first or last observation.  Observations at a single instant
leave no room to narrow, so there a later end lengthens the span instead.  Without
any observation both ends have to be given. -/
def resolve (window : Window α) (times : List α) : Except (WindowError α) (Span α) :=
  match Span.covering? times with
  | some observed =>
      if observed.start == observed.stop then
        let later := window.latestAsked.filter fun latest => decide (observed.stop ≤ latest)
        Span.ofEnds observed.start (later.getD observed.stop)
      else
        let start := window.earliest.filter fun earliest => decide (observed.start ≤ earliest)
        let stop := window.latestAsked.filter fun latest => decide (latest ≤ observed.stop)
        Span.ofEnds (start.getD observed.start) (stop.getD observed.stop)
  | none =>
      match window.earliest, window.latestAsked with
      | some start, some stop => Span.ofEnds start stop
      | _, _ => .error .incomplete

end Window

end HostTimeline
