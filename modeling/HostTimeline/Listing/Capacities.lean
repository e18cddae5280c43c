import HostTimeline.Listing.Basic
import HostTimeline.Report.Basic

/-!
The most each host offered, the most of any host, and the sum over the hosts.
-/

namespace HostTimeline.Listing

structure CapacityRow where
  host : String
  slots : Float
  memory : Float

/-- One row per host, then the greatest capacities and the totals. -/
def CapacityRow.ofReport (report : Report Float) : List CapacityRow :=
  let slots := report.timeline.capacity .slots
  let memory := report.timeline.capacity .memory
  let hosts := report.timeline.tracks.map fun track =>
    { host := track.name, slots := track.capacity .slots, memory := track.capacity .memory }
  hosts ++
    [{ host := "*max*", slots := slots.max, memory := memory.max },
      { host := "*total*", slots := slots.total, memory := memory.total }]

def capacity : Listing CapacityRow where
  columns := [
    .always "host" fun row => row.host,
    .always "slots" fun row => Binary64.amountText row.slots,
    .always "memory" fun row => Binary64.amountText row.memory]
  defaults := "host,slots,memory"

end HostTimeline.Listing
