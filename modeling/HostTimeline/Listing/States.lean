import HostTimeline.Calendar.Clock
import HostTimeline.Listing.Basic
import HostTimeline.Report.Basic

/-!
The number of hosts in each drawn state, one row per grid point.
-/

namespace HostTimeline.Listing

/-- A time as date and time of day, if it has a date. -/
def momentCell (time : Float) : String :=
  match Calendar.timeChars? time with
  | some chars => String.ofList chars
  | none => Table.notAvailable

/-- A grid point, and the number of hosts the chart has for it in each state. -/
structure StateRow where
  time : Float
  hosts : PowerState → Option Float

namespace StateRow

def hostsColumn (name : String) (state : PowerState) : Table.Column StateRow where
  name := name
  cell row :=
    match row.hosts state with
    | some count => .ok (Binary64.amountText count)
    | none => .error (.valueMissing name)

def ofReport (report : Report Float) : List StateRow :=
  let series := report.stateChart.series.map fun entry => (entry.1, entry.2.toArray)
  report.timeline.grid.points.mapIdx fun index time =>
    { time
      hosts := fun state => do
        let points ← series.lookup state
        let point ← points[index]?
        return point.y }

end StateRow

def states : Listing StateRow where
  columns := [
    .always "time" fun row => Binary64.amountText row.time,
    .always "datetime" fun row => momentCell row.time,
    StateRow.hostsColumn "used" .used,
    StateRow.hostsColumn "idle" .idle,
    StateRow.hostsColumn "poweringoff" .poweringOff,
    StateRow.hostsColumn "poweringon" .poweringOn,
    StateRow.hostsColumn "unknown" .unknown,
    StateRow.hostsColumn "error" .error,
    StateRow.hostsColumn "off" .off]
  aliases := [
    ("all",
      ["time", "used", "idle", "poweringoff", "poweringon", "unknown", "error", "off"])]
  defaults := "datetime,used,idle,poweringoff,poweringon,unknown,error"

end HostTimeline.Listing
