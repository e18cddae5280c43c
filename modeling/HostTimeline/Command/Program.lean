import HostTimeline.Command.Arguments

/-!
The program as a function: from its arguments to an outcome, by way of at most one
text that it reads.
-/

namespace HostTimeline.Command

inductive Outcome where
  | printed (text : String)
  | failed (failure : Failure)
  /-- The arguments make no request. -/
  | badArguments

/-- The first step of the program: it is done, or it reads a text first. -/
inductive Plan where
  | done (outcome : Outcome)
  | reading (request : Request)

def versionText : String :=
  "cluesreport version(0.1.0)\n"

/-- Help comes before all else, and the options are checked before anything is
read. -/
def Plan.ofRequest (request : Request) : Plan :=
  if request.asksHelp then
    .done (.printed request.subject.help.text)
  else
    match request.check with
    | .error failure => .done (.failed failure)
    | .ok () => .reading request

/-- The plan of a run; `now` is what relative times count back from. -/
def Plan.ofArguments (now : Int) : List String → Plan
  | ["version"] | ["version", "--"] => .done (.printed versionText)
  | name :: arguments =>
      match Subject.ofName? name with
      | none => .done .badArguments
      | some subject =>
          match Request.ofArguments now subject arguments with
          | none => .done .badArguments
          | some request => .ofRequest request
  | [] => .done .badArguments

namespace Outcome

def ofAnswer : Except Failure String → Outcome
  | .ok text => .printed text
  | .error failure => .failed failure

/-- The exit status.  A listing that lacks a value cannot be completed, which is a
defect and no user error. -/
def status : Outcome → Nat
  | .printed _ => 0
  | .failed (.table (.valueMissing _)) => 101
  | .failed _ => 1
  | .badArguments => 2

end Outcome

/-- Where texts come from: standard input, and files by name. -/
structure Sources where
  standardInput : List UInt8
  file? : String → Option (List UInt8)

/-- The text a request is about. -/
def Sources.text (sources : Sources) (request : Request) : Except OpenError (List UInt8) :=
  match request.file? with
  | none => .ok sources.standardInput
  | some file =>
      match sources.file? file with
      | some text => .ok text
      | none => .error .notFound

/-- The outcome of a run. -/
def run (now : Int) (sources : Sources) (arguments : List String) : Outcome :=
  match Plan.ofArguments now arguments with
  | .done outcome => outcome
  | .reading request => .ofAnswer (request.answer (sources.text request))

end HostTimeline.Command
