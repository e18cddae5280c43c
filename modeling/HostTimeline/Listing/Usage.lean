import HostTimeline.Listing.Basic
import HostTimeline.Report.Basic

/-!
Usage of slots and memory, one row per host and resource.
-/

namespace HostTimeline.Listing

structure UsageRow where
  host : String
  resource : Resource
  load : Load Float

def resourceName : Resource → String
  | .slots => "slots"
  | .memory => "memory"

def UsageRow.ofReport (report : Report Float) : List UsageRow :=
  report.loads.flatMap fun (host, load) =>
    [{ host, resource := .slots, load := load.slots },
      { host, resource := .memory, load := load.memory }]

def usage : Listing UsageRow where
  columns := [
    .always "host" fun row => row.host,
    .always "quantity" fun row => resourceName row.resource,
    .always "area" fun row => Binary64.amountText row.load.area,
    .always "mean" fun row => Table.optionalCell row.load.mean,
    .always "meanavail" fun row => Table.optionalCell row.load.acceptedMean,
    .always "availtime" fun row => Binary64.amountText row.load.acceptedTime,
    .always "hist0" fun row => Binary64.amountText (row.load.histogram .first),
    .always "hist1" fun row => Binary64.amountText (row.load.histogram .second),
    .always "hist2" fun row => Binary64.amountText (row.load.histogram .third),
    .always "hist3" fun row => Binary64.amountText (row.load.histogram .fourth)]
  aliases := [("hist", ["hist0", "hist1", "hist2", "hist3"])]
  defaults := "host,quantity,mean,meanavail,hist"

end HostTimeline.Listing
