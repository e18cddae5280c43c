import HostTimeline.Listing.States

/-!
What each host offers and uses of one resource, one row per host and grid point.
-/

namespace HostTimeline.Listing

structure ResourceRow where
  host : String
  time : Float
  offered : Float
  used : Float

namespace ResourceRow

/-- The value of a series at a position; a series that does not reach it has none
there, which counts as zero. -/
def valueAt (points : Array (Point Float)) (index : Nat) : Float :=
  (points[index]?.map Point.y).getD Scalar.zero

def ofReport (resource : Resource) (report : Report Float) : List ResourceRow :=
  let charts := report.timeline.resourceCharts resource
  charts.used.series.flatMap fun (host, used) =>
    let offered := ((charts.offered.find? host).getD []).toArray
    let used := used.toArray
    report.timeline.grid.points.mapIdx fun index time =>
      { host, time, offered := valueAt offered index, used := valueAt used index }

end ResourceRow

def resources : Listing ResourceRow where
  columns := [
    .always "host" fun row => row.host,
    .always "time" fun row => Binary64.amountText row.time,
    .always "datetime" fun row => momentCell row.time,
    .always "total" fun row => Binary64.amountText row.offered,
    .always "used" fun row => Binary64.amountText row.used]
  defaults := "host,datetime,total,used"

end HostTimeline.Listing
