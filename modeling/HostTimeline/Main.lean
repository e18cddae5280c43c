import HostTimeline.Command.Program
import Std.Time.DateTime.Timestamp

/-!
The command-line program: reads what the plan asks for and prints the outcome.
-/

namespace HostTimeline.Command

def OpenError.ofIO : IO.Error → OpenError
  | .noFileOrDirectory .. => .notFound
  | error => .other (toString error)

def readText (request : Request) : IO (Except OpenError (List UInt8)) := do
  match request.file? with
  | none =>
      let bytes ← (← IO.getStdin).readBinToEnd
      return .ok bytes.toList
  | some file =>
      try
        let bytes ← IO.FS.readBinFile file
        return .ok bytes.toList
      catch error =>
        return .error (OpenError.ofIO error)

def perform : Plan → IO Outcome
  | .done outcome => return outcome
  | .reading request => return .ofAnswer (request.answer (← readText request))

def report (outcome : Outcome) : IO UInt32 := do
  match outcome with
  | .printed text => IO.print text
  | .failed failure => IO.eprintln ("ERROR: " ++ failure.message)
  | .badArguments => IO.eprintln "error: invalid arguments"
  return outcome.status.toUInt32

end HostTimeline.Command

open HostTimeline.Command in
def main (arguments : List String) : IO UInt32 := do
  let now := (← Std.Time.Timestamp.now).toSecondsSinceUnixEpoch.toInt
  report (← perform (Plan.ofArguments now arguments))
