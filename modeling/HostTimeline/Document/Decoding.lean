import HostTimeline.Decimal.Shortest
import HostTimeline.Document.Basic
import HostTimeline.Json.Printer
import HostTimeline.Json.Reader
import HostTimeline.Text.Blank
import HostTimeline.Text.Integer

/-!
Decoding of report documents.  A document is an object; its member `hostevents`
holds for each host name an array of observations, and the optional numbers
`min_t` and `max_t` ask for a window.  Numbers may come with a point where integers
are expected, and state codes as strings; other members are ignored.
-/

namespace HostTimeline

/-- What is wrong with a field. -/
inductive FieldError where
  | numberMissing
  | notFinite
  | notANumber
  | integerMissing
  | notAnInteger
  | stateMissing
  | unknownNumber (code : Json.Number)
  | unknownText (code : String)

inductive ObservationError where
  | notAnObject
  | field (name : String) (error : FieldError)

inductive DocumentError where
  | json (fault : Json.Fault)
  | notAnObject
  | hostsMissing
  | notAnArray (host : String)
  | observation (index : Nat) (host : String) (error : ObservationError)
  | field (name : String) (error : FieldError)

def FieldError.message (name : String) (error : FieldError) : String :=
  "Field '" ++ name ++
    match error with
    | .numberMissing => "' must be present and have a numeric value"
    | .notFinite => "' must have a finite numeric value"
    | .notANumber => "' must have a numeric value"
    | .integerMissing => "' must be present and have an integer value"
    | .notAnInteger => "' must have an integer value"
    | .stateMissing => "' must be present and have an integer or string value"
    | .unknownNumber code =>
        "' has an unknown state code: " ++ String.ofList (Json.numberChars code)
    | .unknownText code =>
        "' has an unknown state code: " ++ String.ofList (Json.quotedChars code)

def ObservationError.message : ObservationError → String
  | .notAnObject => "Expected an object value"
  | .field name error => error.message name

def DocumentError.message : DocumentError → String
  | .json fault => fault.message
  | .notAnObject => "Expected an object value at the top level"
  | .hostsMissing => "Field 'hostevents' must be present and have an object value"
  | .notAnArray host => "Events for host " ++ host ++ " must be an array"
  | .observation index host error =>
      "Event " ++ String.ofList (Decimal.digitsOf index) ++ " for host " ++ host ++ ": " ++
        error.message
  | .field name error => error.message name

namespace Decoding

/-- The members of an object. -/
abbrev Members :=
  List (String × Json.Value)

/-- A number; none if it is absent or null. -/
def number? (members : Members) (name : String) : Except FieldError (Option Float) :=
  match members.lookup name with
  | none | some .null => .ok none
  | some (.number value) =>
      if value.toFloat.isFinite then .ok (some value.toFloat) else .error .notFinite
  | some _ => .error .notANumber

def number (members : Members) (name : String) : Except FieldError Float := do
  match ← number? members name with
  | some value => return value
  | none => throw .numberMissing

/-- The nearest 64-bit integer. -/
def clampInteger (value : Int) : Int :=
  max Text.leastInteger (min Text.greatestInteger value)

/-- The 64-bit integer a number is equal to or, if it is integral but does not fit,
the nearest one. -/
def integerOf? : Json.Number → Option Int
  | .integer value =>
      if Text.leastInteger ≤ value ∧ value ≤ Text.greatestInteger then
        some value
      else
        (Binary64.integer? (Float.ofInt value)).map clampInteger
  | .binary value => (Binary64.integer? value).map clampInteger

def integer (members : Members) (name : String) : Except FieldError Int :=
  match members.lookup name with
  | some (.number value) =>
      match integerOf? value with
      | some value => .ok value
      | none => .error .notAnInteger
  | _ => .error .integerMissing

/-- The integer in a text, which may have white space around it. -/
def integerIn? (text : String) : Option Int :=
  (Text.readInteger (Text.trim text.toList)).toOption

def state (members : Members) (name : String) : Except FieldError PowerState :=
  match members.lookup name with
  | some (.number value) =>
      match integerOf? value >>= PowerState.ofCode? with
      | some state => .ok state
      | none => .error (.unknownNumber value)
  | some (.text value) =>
      match integerIn? value >>= PowerState.ofCode? with
      | some state => .ok state
      | none => .error (.unknownText value)
  | _ => .error .stateMissing

/-- Reads one field, telling its name with an error. -/
def field {β : Type} (read : Members → String → Except FieldError β) (members : Members)
    (name : String) : Except ObservationError β :=
  (read members name).mapError (.field name)

def observation : Json.Value → Except ObservationError (Observation Float)
  | .object members => do
      let time ← field number members "t"
      let state ← field state members "state"
      let slots ← field integer members "slots"
      let slotsUsed ← field integer members "slots_used"
      let memory ← field number members "memory"
      let memoryUsed ← field number members "memory_used"
      return { time, state, slots, slotsUsed, memory, memoryUsed }
  | _ => .error .notAnObject

/-- The observations of one host, the first of them at position `index`. -/
def observations (host : String) (index : Nat) :
    List Json.Value → Except DocumentError (List (Observation Float))
  | [] => .ok []
  | value :: rest => do
      let first ← (observation value).mapError (.observation index host)
      let others ← observations host (index + 1) rest
      return first :: others

def host (name : String) : Json.Value → Except DocumentError (List (Observation Float))
  | .array elements => observations name 0 elements
  | _ => .error (.notAnArray name)

/-- Members are visited in the order of their names, so that of several faults the
same one is always told. -/
def sortByName (members : Members) : Members :=
  stableSort (fun left right => decide (left.1 ≤ right.1)) members

/-- The hosts in the order of the members. -/
def hosts : Members → Except DocumentError (List (String × List (Observation Float)))
  | [] => .ok []
  | member :: rest => do
      let first ← host member.1 member.2
      let others ← hosts rest
      return (member.1, first) :: others

end Decoding

namespace Document

def ofJson : Json.Value → Except DocumentError (Document Float)
  | .object members => do
      let hosts ←
        match members.lookup "hostevents" with
        | some (.object hosts) => Decoding.hosts (Decoding.sortByName hosts)
        | _ => throw .hostsMissing
      let earliest ← (Decoding.number? members "min_t").mapError (.field "min_t")
      let latest ← (Decoding.number? members "max_t").mapError (.field "max_t")
      return { hosts := HostMap.ofList hosts, window := { earliest, latest } }
  | _ => .error .notAnObject

/-- Reads a document from its text. -/
def read (text : List UInt8) : Except DocumentError (Document Float) := do
  let value ← (Json.read text).mapError .json
  ofJson value

end Document

end HostTimeline
