import HostTimeline.Listing.Basic
import HostTimeline.Report.Basic

/-!
Time spent in each state, one row per host and state.
-/

namespace HostTimeline.Listing

structure HostRow where
  host : String
  state : PowerState
  time : StateTime Float

/-- The rows of each host, ascending by code. -/
def HostRow.ofReport (states : List PowerState) (report : Report Float) : List HostRow :=
  report.occupancies.flatMap fun (host, occupancy) =>
    states.map fun state => { host, state, time := occupancy.inState state }

/-- An integer in decimal. -/
def integerText (value : Int) : String :=
  String.ofList (Decimal.sign (decide (value < 0)) ++ Decimal.digitsOf value.natAbs)

def hosts : Listing HostRow where
  columns := [
    .always "host" fun row => row.host,
    .always "state" fun row => row.state.label,
    .always "code" fun row => integerText row.state.code,
    .always "count" fun row => integerText row.time.stays,
    .always "duration" fun row => Binary64.amountText row.time.duration,
    .always "pctavail" fun row => Table.optionalCell row.time.ofAvailable,
    .always "pcttotal" fun row => Table.optionalCell row.time.ofTotal]
  defaults := "host,state,count,duration,pctavail,pcttotal"

end HostTimeline.Listing
