import HostTimeline.Entries
import HostTimeline.StableSort

/-!
Values keyed by host name.  No name occurs twice; the order of the entries has no
meaning, and `sorted` lists them by name.
-/

namespace HostTimeline

structure HostMap (β : Type) where
  entries : List (String × β)
  distinct : (entries.map Prod.fst).Nodup

namespace HostMap

variable {β γ : Type}

def empty : HostMap β :=
  { entries := [], distinct := List.nodup_nil }

def names (hosts : HostMap β) : List String :=
  hosts.entries.map Prod.fst

def values (hosts : HostMap β) : List β :=
  hosts.entries.map Prod.snd

def find? (hosts : HostMap β) (name : String) : Option β :=
  hosts.entries.lookup name

def map (change : String → β → γ) (hosts : HostMap β) : HostMap γ where
  entries := hosts.entries.map fun entry => (entry.1, change entry.1 entry.2)
  distinct := by
    simpa [List.map_map, Function.comp_def] using hosts.distinct

def set (hosts : HostMap β) (name : String) (value : β) : HostMap β where
  entries := setEntry name value hosts.entries
  distinct := nodup_names_setEntry hosts.distinct

@[simp]
theorem find?_set {hosts : HostMap β} {name other : String} {value : β} :
    (hosts.set name value).find? other = if other = name then some value else hosts.find? other :=
  lookup_setEntry

/-- Of two entries with the same name the later one counts. -/
def ofList (entries : List (String × β)) : HostMap β :=
  entries.foldl (fun hosts entry => hosts.set entry.1 entry.2) empty

/-- The entries ascending by name. -/
def sorted (hosts : HostMap β) : List (String × β) :=
  stableSort (fun left right => decide (left.1 ≤ right.1)) hosts.entries

end HostMap

end HostTimeline
