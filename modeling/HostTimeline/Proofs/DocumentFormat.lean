import HostTimeline.Proofs.Decoding

/-!
The document format.  A value is decoded exactly if it is a document; the result holds what the
fields say, host by host and observation by observation; and no other field has any influence, not
even on the errors (`Document.decodesExactly`).
-/

namespace HostTimeline

section Related

variable {α β : Type} {related : α → β → Prop}

theorem exists_of_mem_forall₂ {items : List α} {results : List β}
    (all : List.Forall₂ related items results) {item : α} (member : item ∈ items) :
    ∃ result ∈ results, related item result := by
  induction all with
  | nil => cases member
  | cons here _ ih =>
      rcases List.mem_cons.mp member with rfl | later
      · exact ⟨_, List.mem_cons_self, here⟩
      · obtain ⟨result, found, isRelated⟩ := ih later
        exact ⟨result, List.mem_cons_of_mem _ found, isRelated⟩

/-- Items that are each related to some result are related to a list of results. -/
theorem exists_forall₂_iff {items : List α} :
    (∃ results, List.Forall₂ related items results) ↔
      ∀ item ∈ items, ∃ result, related item result := by
  constructor
  · rintro ⟨results, all⟩ item member
    obtain ⟨result, _, isRelated⟩ := exists_of_mem_forall₂ all member
    exact ⟨result, isRelated⟩
  · intro each
    induction items with
    | nil => exact ⟨[], .nil⟩
    | cons item rest ih =>
        obtain ⟨here, later⟩ := List.forall_mem_cons.mp each
        obtain ⟨result, isRelated⟩ := here
        obtain ⟨results, all⟩ := ih later
        exact ⟨result :: results, .cons isRelated all⟩

end Related

namespace Decoding

variable {left right : Members} {name : String}

/-- Objects in which the given fields are the same, or missing from both. -/
def AgreeOn (names : List String) (left right : Members) : Prop :=
  ∀ name ∈ names, left.lookup name = right.lookup name

/-- Elements that differ in other fields than those of an observation, if at all. -/
inductive AlikeElements : Json.Value → Json.Value → Prop where
  | refl (value : Json.Value) : AlikeElements value value
  | object {left right : Members}
      (agree : AgreeOn ["t", "state", "slots", "slots_used", "memory", "memory_used"] left right) :
      AlikeElements (.object left) (.object right)

/-- Hosts whose elements are alike, one by one. -/
inductive AlikeHosts : Json.Value → Json.Value → Prop where
  | refl (value : Json.Value) : AlikeHosts value value
  | array {left right : List Json.Value} (elements : List.Forall₂ AlikeElements left right) :
      AlikeHosts (.array left) (.array right)

/-- Hosts of the same names that are alike, one by one, if there are any. -/
inductive AlikeMembers : Option Json.Value → Option Json.Value → Prop where
  | refl (value : Option Json.Value) : AlikeMembers value value
  | object {left right : Members}
      (hosts : List.Forall₂ (fun host other => host.1 = other.1 ∧ AlikeHosts host.2 other.2)
        left right) :
      AlikeMembers (some (.object left)) (some (.object right))

theorem observation_congr {element other : Json.Value} (alike : AlikeElements element other) :
    observation element = observation other := by
  cases alike with
  | refl => rfl
  | @object left right agree =>
      have numbers {name : String} (same : left.lookup name = right.lookup name) :
          field number left name = field number right name := by
        simp only [field, number, number?, same]
      have integers {name : String} (same : left.lookup name = right.lookup name) :
          field integer left name = field integer right name := by
        simp only [field, integer, same]
      have states {name : String} (same : left.lookup name = right.lookup name) :
          field state left name = field state right name := by
        simp only [field, state, same]
      simp only [AgreeOn, List.forall_mem_cons] at agree
      obtain ⟨time, code, slots, slotsUsed, memory, memoryUsed, _⟩ := agree
      simp only [observation, numbers time, states code, integers slots, integers slotsUsed,
        numbers memory, numbers memoryUsed]

theorem observations_congr {elements others : List Json.Value}
    (alike : List.Forall₂ AlikeElements elements others) (index : Nat) :
    observations name index elements = observations name index others := by
  induction alike generalizing index with
  | nil => rfl
  | cons here _ ih => rw [observations, observations, observation_congr here, ih]

theorem host_congr {value other : Json.Value} (alike : AlikeHosts value other) :
    host name value = host name other := by
  cases alike with
  | refl => rfl
  | array elements => exact observations_congr elements 0

theorem perm_sortByName (members : Members) : (sortByName members).Perm members :=
  perm_stableSort members

/-- Two values under each name, as one list. -/
theorem exists_pairs {related : Json.Value → Json.Value → Prop}
    (alike : List.Forall₂ (fun host other => host.1 = other.1 ∧ related host.2 other.2) left right) :
    ∃ pairs : List (String × Json.Value × Json.Value),
      left = pairs.map (fun pair => (pair.1, pair.2.1)) ∧
      right = pairs.map (fun pair => (pair.1, pair.2.2)) ∧
      ∀ pair ∈ pairs, related pair.2.1 pair.2.2 := by
  induction alike with
  | nil => exact ⟨[], rfl, rfl, by simp⟩
  | @cons host other _ _ here _ ih =>
      obtain ⟨pairs, rfl, rfl, each⟩ := ih
      obtain ⟨name, value⟩ := host
      obtain ⟨_, otherValue⟩ := other
      obtain ⟨rfl, here⟩ := here
      exact ⟨(name, value, otherValue) :: pairs, rfl, rfl, List.forall_mem_cons.mpr ⟨here, each⟩⟩

theorem hosts_sortByName_congr
    (alike : List.Forall₂ (fun host other => host.1 = other.1 ∧ AlikeHosts host.2 other.2)
      left right) :
    hosts (sortByName left) = hosts (sortByName right) := by
  obtain ⟨pairs, rfl, rfl, each⟩ := exists_pairs alike
  -- Sorting looks at the names only, so it puts the two lists in the same order.
  have sorted (side : String × Json.Value × Json.Value → String × Json.Value)
      (named : ∀ pair, (side pair).1 = pair.1) :
      sortByName (pairs.map side) =
        (stableSort (fun pair other => decide (pair.1 ≤ other.1)) pairs).map side :=
    (map_stableSort (fun pair other => by rw [named, named]) pairs).symm
  rw [sorted (fun pair => (pair.1, pair.2.1)) fun _ => rfl,
    sorted (fun pair => (pair.1, pair.2.2)) fun _ => rfl]
  have each : ∀ pair ∈ stableSort (fun pair other => decide (pair.1 ≤ other.1)) pairs,
      AlikeHosts pair.2.1 pair.2.2 := fun pair member => each pair (mem_stableSort.mp member)
  generalize stableSort _ pairs = ordered at each
  induction ordered with
  | nil => rfl
  | cons pair rest ih =>
      obtain ⟨here, later⟩ := List.forall_mem_cons.mp each
      rw [List.map_cons, List.map_cons, hosts, hosts, host_congr here, ih later]

end Decoding

namespace Document

open Decoding

/-- A value in the document format. -/
def IsDocument (value : Json.Value) : Prop :=
  ∃ members, value = .object members ∧
    (∃ hosts, members.lookup "hostevents" = some (.object hosts) ∧
      ∀ host ∈ hosts, ∃ elements, host.2 = .array elements ∧
        ∀ element ∈ elements, ∃ fields, element = .object fields ∧ IsObservation fields) ∧
    (∃ earliest, HoldsOptional members "min_t" earliest) ∧
    ∃ latest, HoldsOptional members "max_t" latest

/-- What a value in the document format says: the hosts by name, each with one observation for
each element, and the window. -/
structure IsOf (document : Document Float) (members : Members) : Prop where
  hosts : ∃ hosts, members.lookup "hostevents" = some (.object hosts) ∧
    document.hosts.names.Perm (hosts.map Prod.fst) ∧
    ∀ host ∈ hosts, ∃ observations, document.hosts.find? host.1 = some observations ∧
      IsHost host.2 observations
  earliest : HoldsOptional members "min_t" document.window.earliest
  latest : HoldsOptional members "max_t" document.window.latest

/-- Values that differ only in members that the document format does not name, if at all. -/
inductive Alike : Json.Value → Json.Value → Prop where
  | refl (value : Json.Value) : Alike value value
  | object {left right : Members} (bounds : AgreeOn ["min_t", "max_t"] left right)
      (hosts : AlikeMembers (left.lookup "hostevents") (right.lookup "hostevents")) :
      Alike (.object left) (.object right)

structure DecodesExactly (value : Json.Value) : Prop where
  accepts : (∃ document, ofJson value = .ok document) ↔ IsDocument value
  result : ∀ document, ofJson value = .ok document →
    ∃ members, value = .object members ∧ document.IsOf members
  others : ∀ other, Alike value other → ofJson other = ofJson value

theorem ofJson_congr {value other : Json.Value} (alike : Alike value other) :
    ofJson other = ofJson value := by
  cases alike with
  | refl => rfl
  | @object left right bounds hosts =>
      simp only [AgreeOn, List.forall_mem_cons] at bounds
      obtain ⟨earliest, latest, _⟩ := bounds
      have numbers {name : String} (same : left.lookup name = right.lookup name) :
          number? left name = number? right name := by
        simp only [number?, same]
      unfold ofJson
      simp only [numbers earliest, numbers latest]
      generalize left.lookup "hostevents" = found at hosts
      generalize right.lookup "hostevents" = otherFound at hosts
      cases hosts with
      | refl => rfl
      | object hosts => simp only [hosts_sortByName_congr hosts]

/-- Decoding of an object, one step for each of its three members. -/
theorem ofJson_ok_iff {members : Members}
    (proper : ∀ member ∈ members, member.2.IsProper) {document : Document Float} :
    ofJson (.object members) = .ok document ↔
      ∃ hosts entries, members.lookup "hostevents" = some (.object hosts) ∧
        Decoding.hosts (sortByName hosts) = .ok entries ∧
        HoldsOptional members "min_t" document.window.earliest ∧
        HoldsOptional members "max_t" document.window.latest ∧
        document.hosts = HostMap.ofList entries := by
  unfold ofJson
  constructor
  · intro read
    simp only at read
    split at read
    next hosts found =>
      simp only [bind_ok_iff, mapError_ok_iff, number?_ok_iff proper] at read
      obtain ⟨entries, taken, earliest, isEarliest, latest, isLatest, same⟩ := read
      cases same
      exact ⟨hosts, entries, found, taken, isEarliest, isLatest, rfl⟩
    next => cases read
  · rintro ⟨hosts, entries, found, taken, isEarliest, isLatest, same⟩
    simp only [found, bind_ok_iff, mapError_ok_iff, number?_ok_iff proper]
    refine ⟨entries, taken, _, isEarliest, _, isLatest, ?_⟩
    rw [← same]
    rfl

variable {members : Members}

theorem isProper_hosts {hosts : Members} (proper : ∀ member ∈ members, member.2.IsProper)
    (found : members.lookup "hostevents" = some (.object hosts)) :
    (hosts.map Prod.fst).Nodup ∧ ∀ host ∈ hosts, host.2.IsProper := by
  cases isProper_of_lookup proper found with
  | object distinct each => exact ⟨distinct, each⟩

theorem exists_hosts_ok_iff {hosts : Members} (proper : ∀ host ∈ hosts, host.2.IsProper) :
    (∃ entries, Decoding.hosts (sortByName hosts) = .ok entries) ↔
      ∀ host ∈ hosts, ∃ elements, host.2 = .array elements ∧
        ∀ element ∈ elements, ∃ fields, element = .object fields ∧ IsObservation fields := by
  have sorted := fun host => (perm_sortByName hosts).mem_iff (a := host)
  simp only [hosts_ok_iff fun host member => proper host ((sorted host).mp member),
    exists_forall₂_iff, sorted]
  refine forall₂_congr fun host member => ?_
  constructor
  · rintro ⟨entry, _, elements, same, all⟩
    refine ⟨elements, same, fun element within => ?_⟩
    obtain ⟨observation, members, isObject, describes⟩ := exists_forall₂_iff.mp ⟨_, all⟩ element within
    exact ⟨members, isObject, isObservation_iff.mpr ⟨observation, describes⟩⟩
  · rintro ⟨elements, same, each⟩
    obtain ⟨observations, all⟩ : ∃ observations, List.Forall₂ IsElement elements observations := by
      refine exists_forall₂_iff.mpr fun element within => ?_
      obtain ⟨fields, isObject, isObservation⟩ := each element within
      obtain ⟨observation, describes⟩ := isObservation_iff.mp isObservation
      exact ⟨observation, fields, isObject, describes⟩
    exact ⟨(host.1, observations), rfl, elements, same, all⟩

theorem exists_ofJson_ok_iff {value : Json.Value} (proper : value.IsProper) :
    (∃ document, ofJson value = .ok document) ↔ IsDocument value := by
  cases proper with
  | @object members distinct each =>
      constructor
      · rintro ⟨document, read⟩
        obtain ⟨hosts, entries, found, taken, isEarliest, isLatest, _⟩ := (ofJson_ok_iff each).mp read
        refine ⟨members, rfl, ⟨hosts, found, ?_⟩, ⟨_, isEarliest⟩, ⟨_, isLatest⟩⟩
        exact (exists_hosts_ok_iff (isProper_hosts each found).2).mp ⟨entries, taken⟩
      · rintro ⟨_, ⟨⟩, ⟨hosts, found, areHosts⟩, ⟨earliest, isEarliest⟩, ⟨latest, isLatest⟩⟩
        obtain ⟨entries, taken⟩ := (exists_hosts_ok_iff (isProper_hosts each found).2).mpr areHosts
        exact ⟨{ hosts := HostMap.ofList entries, window := { earliest, latest } },
          (ofJson_ok_iff each).mpr ⟨hosts, entries, found, taken, isEarliest, isLatest, rfl⟩⟩
  | null | bool | number | text | array =>
      exact ⟨fun ⟨_, read⟩ => (nomatch read), fun ⟨_, same, _⟩ => (nomatch same)⟩

theorem isOf_ofJson {value : Json.Value} (proper : value.IsProper) {document : Document Float}
    (read : ofJson value = .ok document) :
    ∃ members, value = .object members ∧ document.IsOf members := by
  cases proper with
  | @object members distinct each =>
      obtain ⟨hosts, entries, found, taken, isEarliest, isLatest, made⟩ := (ofJson_ok_iff each).mp read
      obtain ⟨distinctHosts, properHosts⟩ := isProper_hosts each found
      have sorted := perm_sortByName hosts
      rw [hosts_ok_iff fun host member => properHosts host (sorted.mem_iff.mp member)] at taken
      have named : entries.map Prod.fst = (sortByName hosts).map Prod.fst := by
        rw [← List.forall₂_eq_eq_eq, List.forall₂_map_left_iff, List.forall₂_map_right_iff]
        exact taken.flip.imp fun _ _ both => both.1
      have distinctEntries : (entries.map Prod.fst).Nodup :=
        named ▸ (sorted.map Prod.fst).nodup_iff.mpr distinctHosts
      have kept : document.hosts.entries = entries := made ▸ HostMap.entries_ofList distinctEntries
      refine ⟨members, rfl, ⟨hosts, found, ?_, ?_⟩, isEarliest, isLatest⟩
      · rw [HostMap.names, kept, named]
        exact sorted.map Prod.fst
      · intro host member
        obtain ⟨entry, within, same, isHost⟩ :=
          exists_of_mem_forall₂ taken (sorted.mem_iff.mpr member)
        refine ⟨entry.2, ?_, isHost⟩
        rw [HostMap.find?, kept, ← same]
        exact lookup_of_mem distinctEntries within
  | null | bool | number | text | array => cases read

theorem decodesExactly {value : Json.Value} (proper : value.IsProper) : DecodesExactly value where
  accepts := exists_ofJson_ok_iff proper
  result _ read := isOf_ofJson proper read
  others _ alike := ofJson_congr alike

/-- A document of two hosts, one of them without observations, with members that have no
meaning. -/
def twoHosts : Json.Value :=
  .object
    [("version", .bool true),
      ("hostevents", .object
        [("wn2", .array []),
          ("wn1", .array
            [.object
              [("t", .number (.integer 12)), ("state", .text " +1 "),
                ("slots", .number (.integer 4)), ("comment", .null),
                ("slots_used", .number (.integer 18446744073709551615)),
                ("memory", .number (.integer 1024)), ("memory_used", .number (.integer 0))]])]),
      ("max_t", .null)]

theorem decodesExactly_twoHosts : twoHosts.IsProper ∧ DecodesExactly twoHosts := by
  have integer (value : Int) (held : Text.leastInteger ≤ value ∧
      value ≤ Json.Numeral.greatestSignificand) : (Json.Value.number (.integer value)).IsProper :=
    .number held
  have proper : twoHosts.IsProper := by
    refine .object (by decide) ?_
    simp only [List.forall_mem_cons]
    refine ⟨.bool _, .object (by decide) ?_, .null, by simp⟩
    simp only [List.forall_mem_cons]
    refine ⟨.array (by simp), .array ?_, by simp⟩
    simp only [List.forall_mem_cons]
    refine ⟨.object (by decide) ?_, by simp⟩
    simp only [List.forall_mem_cons]
    exact ⟨integer _ (by decide), .text _, integer _ (by decide), .null, integer _ (by decide),
      integer _ (by decide), integer _ (by decide), by simp⟩
  exact ⟨proper, decodesExactly proper⟩

end Document

end HostTimeline
