import HostTimeline.HostMap
import HostTimeline.Observation
import HostTimeline.Window

/-!
What a report is made from: the observations of every host, in any order, and the
window its sender asked for.
-/

namespace HostTimeline

structure Document (α : Type) where
  hosts : HostMap (List (Observation α))
  window : Window α := {}

end HostTimeline
