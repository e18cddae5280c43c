import HostTimeline.Decimal.Shortest
import HostTimeline.Report.Basic

/-!
The wording of what keeps a report from being made.
-/

namespace HostTimeline

def WindowError.message : WindowError Float → String
  | .incomplete => "No host events, and no complete time window was given"
  | .empty start stop =>
      "The time window is empty: start " ++ Binary64.plainText start ++ " is after end " ++
        Binary64.plainText stop

def Overload.message (overload : Overload Float) : String :=
  "Value " ++ Binary64.plainText overload.value ++ " at time " ++
    Binary64.plainText overload.time ++ " is greater than the maximum expected, " ++
    Binary64.plainText overload.limit

def usageName : Resource → String
  | .slots => "Slot usage"
  | .memory => "Memory usage"

def HostOverload.message (error : HostOverload Float) : String :=
  usageName error.resource ++ " on host " ++ error.host ++ ": " ++ error.overload.message

def ReportError.message : ReportError Float → String
  | .window error => error.message
  | .overload error => error.message

end HostTimeline
