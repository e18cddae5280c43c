import HostTimeline.PowerState
import HostTimeline.Scalar

/-!
The area under a usage curve.  Samples are read as a step function: a run of
equivalent samples counts as one step with the value of its first sample, and
ends where the next run begins or, for the last one, at the last sample.  Runs in
accepted states are also summed by themselves and sorted into quarters of the
values between zero and the greatest one allowed.
-/

namespace HostTimeline

/-- The quarters of the values between zero and the greatest one. -/
inductive Quarter where
  | first
  | second
  | third
  | fourth
deriving Repr, DecidableEq

structure Sample (α : Type) where
  time : α
  value : α
  state : PowerState
deriving Repr

/-- A sample above the greatest value allowed. -/
structure Overload (α : Type) where
  value : α
  time : α
  limit : α
deriving Repr

structure Load (α : Type) where
  area : α
  /-- The area over the length of the curve, if it has one. -/
  mean : Option α
  /-- The accepted area over the accepted time, if there is any. -/
  acceptedMean : Option α
  acceptedArea : α
  acceptedTime : α
  /-- Accepted time per quarter of the values. -/
  histogram : Quarter → α

namespace Load

variable {α : Type} [Scalar α]

def sameValue (left right : Sample α) : Bool :=
  left.value == right.value

def sameValueAndState (left right : Sample α) : Bool :=
  left.value == right.value && decide (left.state = right.state)

/-- How a curve is measured: the greatest value allowed, which samples are
equivalent, and which states are accepted. -/
structure Rule (α : Type) where
  limit : α
  same : Sample α → Sample α → Bool
  accepts : PowerState → Bool

/-- The width of a quarter. -/
def Rule.width (rule : Rule α) : α :=
  rule.limit / Scalar.ofInt 4

/-- The quarter of a value.  Each takes the values above the one below it, up to and
with its own upper end; the first also takes zero and less, the last also what is
above it. -/
def quarter (value width : α) : Quarter :=
  let position := value / width
  if Scalar.ofInt 3 < position then .fourth
  else if Scalar.ofInt 2 < position then .third
  else if Scalar.ofInt 1 < position then .second
  else .first

/-- What is known while samples come in: the sums over the runs that have ended,
and the first sample of the run that goes on. -/
structure Meter (α : Type) where
  run : Option (Sample α)
  start : Option α
  stop : α
  area : α
  acceptedArea : α
  acceptedTime : α
  histogram : Quarter → α

namespace Meter

def fresh : Meter α where
  run := none
  start := none
  stop := Scalar.zero
  area := Scalar.zero
  acceptedArea := Scalar.zero
  acceptedTime := Scalar.zero
  histogram := fun _ => Scalar.zero

/-- Adds a run that ended at a time. -/
def close (rule : Rule α) (meter : Meter α) (run : Sample α) (time : α) : Meter α :=
  let length := time - run.time
  let area := length * run.value
  let meter := { meter with area := meter.area + area }
  if rule.accepts run.state then
    { meter with
      acceptedTime := meter.acceptedTime + length
      acceptedArea := meter.acceptedArea + area
      histogram :=
        if rule.width == Scalar.zero then
          meter.histogram
        else
          fun place =>
            if place = quarter run.value rule.width then
              meter.histogram place + length
            else
              meter.histogram place }
  else
    meter

/-- Takes in a sample within the limit. -/
def accept (rule : Rule α) (meter : Meter α) (sample : Sample α) : Meter α :=
  let meter := { meter with start := meter.start <|> some sample.time }
  let meter :=
    match meter.run with
    | none => { meter with run := some sample }
    | some run =>
        if rule.same run sample then
          meter
        else
          { meter.close rule run sample.time with run := some sample }
  { meter with stop := sample.time }

/-- Takes in a sample, or refuses one above the limit.  Either way the meter is left as it is
then. -/
def record (rule : Rule α) (sample : Sample α) : EStateM (Overload α) (Meter α) Unit := do
  if rule.limit < sample.value then
    throw { value := sample.value, time := sample.time, limit := rule.limit }
  modify fun meter => meter.accept rule sample

/-- Ends the last run at the last sample. -/
def finish (rule : Rule α) (meter : Meter α) : Load α :=
  let closed :=
    match meter.run with
    | none => meter
    | some run => meter.close rule run meter.stop
  let length :=
    match meter.start with
    | none => Scalar.zero
    | some start => meter.stop - start
  { area := closed.area
    mean := if Scalar.zero < length then some (closed.area / length) else none
    acceptedMean :=
      if Scalar.zero < closed.acceptedTime then
        some (closed.acceptedArea / closed.acceptedTime)
      else
        none
    acceptedArea := closed.acceptedArea
    acceptedTime := closed.acceptedTime
    histogram := closed.histogram }

/-- Takes in samples up to the first one that is refused. -/
def recordAll (rule : Rule α) : List (Sample α) → EStateM (Overload α) (Meter α) Unit
  | [] => pure ()
  | sample :: rest => do
      record rule sample
      recordAll rule rest

/-- Goes on with the meter that a sample leaves, whether it was taken in or refused. -/
def offer (rule : Rule α) (meter : Meter α) (sample : Sample α) : Meter α :=
  match (record rule sample).run meter with
  | .ok _ next => next
  | .error _ next => next

end Meter

/-- Measures a whole curve. -/
def ofSamples (rule : Rule α) (samples : List (Sample α)) : Except (Overload α) (Load α) :=
  match (Meter.recordAll rule samples).run Meter.fresh with
  | .ok _ meter => .ok (meter.finish rule)
  | .error overload _ => .error overload

end Load

end HostTimeline
