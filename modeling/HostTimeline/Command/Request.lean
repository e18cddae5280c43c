import HostTimeline.Document.Decoding
import HostTimeline.Listing.Capacities
import HostTimeline.Listing.Hosts
import HostTimeline.Listing.Resources
import HostTimeline.Listing.States
import HostTimeline.Listing.Usage
import HostTimeline.Report.Wording

/-!
A request for a listing: what to list, from which document, in which window and
form.  Carrying it out reads one document and gives the text, or tells why there
is none.
-/

namespace HostTimeline.Command

/-- What is listed. -/
inductive Subject where
  | states
  | hosts (everyState : Bool)
  | usage
  | capacity
  | resources (resource : Resource)
deriving Repr, DecidableEq

structure Request where
  subject : Subject
  earliest : Option Float := none
  latest : Option Float := none
  /-- Drop observations that repeat the one before. -/
  condense : Bool := false
  wholeSeconds : Bool := false
  format : Option String := none
  /-- A file to read; without one, or for `-`, standard input is read. -/
  input : Option String := none

/-- Why a file could not be opened. -/
inductive OpenError where
  | notFound
  | other (reason : String)
deriving Repr, DecidableEq

inductive Failure where
  | windowReversed
  | wholeSecondsAlone
  | cannotOpen (file : String) (error : OpenError)
  | document (file : Option String) (error : DocumentError)
  | report (error : ReportError Float)
  | table (error : TableError)

def OpenError.message : OpenError → String
  | .notFound => "No such file or directory (os error 2)"
  | .other reason => reason

namespace Failure

/-- A message about what is in a file. -/
def within (file : Option String) (message : String) : String :=
  match file with
  | none => message
  | some file => "In " ++ file ++ ": " ++ message

def message : Failure → String
  | .windowReversed => "The --from time is greater than the --to time"
  | .wholeSecondsAlone => "--discretize requires --minimize"
  | .cannotOpen file error => "Could not open " ++ file ++ ": " ++ error.message
  | .document file error => within file error.message
  | .report error => error.message
  | .table error => error.message

end Failure

namespace Subject

def help : Subject → ListingHelp
  | .states => Listing.states.help
  | .hosts _ => Listing.hosts.help
  | .usage => Listing.usage.help
  | .capacity => Listing.capacity.help
  | .resources _ => Listing.resources.help

/-- The listing of a report. -/
def render (subject : Subject) (format : Option String) (report : Report Float) :
    Except TableError String :=
  match subject with
  | .states => Listing.states.render format (Listing.StateRow.ofReport report)
  | .hosts everyState =>
      let states := if everyState then PowerState.all else PowerState.summarized
      Listing.hosts.render format (Listing.HostRow.ofReport states report)
  | .usage => Listing.usage.render format (Listing.UsageRow.ofReport report)
  | .capacity => Listing.capacity.render format (Listing.CapacityRow.ofReport report)
  | .resources resource =>
      Listing.resources.render format (Listing.ResourceRow.ofReport resource report)

end Subject

namespace Request

def window (request : Request) : Window Float :=
  { earliest := request.earliest, latest := request.latest }

def criteria (request : Request) : Option Criteria :=
  if request.condense then
    some { Criteria.everyField with wholeSeconds := request.wholeSeconds }
  else
    none

/-- The file to read, if it is not standard input. -/
def file? (request : Request) : Option String :=
  request.input.filter (· != "-")

/-- Whether the start of the window is given after its end. -/
def isReversed (request : Request) : Bool :=
  match request.earliest, request.latest with
  | some earliest, some latest => decide (latest < earliest)
  | _, _ => false

/-- Whether the options fit together. -/
def check (request : Request) : Except Failure Unit :=
  if request.isReversed then .error .windowReversed
  else if request.wholeSeconds && !request.condense then .error .wholeSecondsAlone
  else .ok ()

/-- The listing of a document that has been read. -/
def render (request : Request) (document : Document Float) : Except Failure String := do
  let report ← (Report.build document request.window request.criteria).mapError .report
  (request.subject.render request.format report).mapError .table

/-- The listing of the text that was read, or why it could not be read. -/
def answer (request : Request) (text : Except OpenError (List UInt8)) : Except Failure String :=
  match text with
  | .error error => .error (.cannotOpen (request.file?.getD "-") error)
  | .ok text => do
      let document ← (Document.read text).mapError (.document request.file?)
      request.render document

/-- Whether help on the fields is asked for instead of a listing. -/
def asksHelp (request : Request) : Bool :=
  request.format.any fun format => "help".toList.isPrefixOf format.toList

end Request

end HostTimeline.Command
