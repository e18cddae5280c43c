import HostTimeline.Listing.Capacities
import HostTimeline.Listing.Hosts
import HostTimeline.Listing.Resources
import HostTimeline.Listing.Usage
import HostTimeline.Proofs.Coverage
import HostTimeline.Proofs.TableText

/-!
How hosts are told in the listings that have a column for them.  In records and in objects the cell
says the name of the host, unless that is the word for what is not available: such a host has no
name there.  Every other name is told as it is (`Report.hostCells`).
-/

namespace HostTimeline

namespace Listing

open Table

variable {ρ : Type} {listing : Listing ρ} {host other : ρ → Option String} {rows : List ρ}

/-- Whatever is selected together with the host, records and objects tell the host of each row so:
a record by an empty field if there is none to be told, an object by null. -/
structure Tells (listing : Listing ρ) (host : ρ → Option String) (rows : List ρ) : Prop where
  csv : ∀ format selection,
    select listing.columns listing.aliases (format.getD listing.defaults) = .ok selection →
    selection.mode = .csv →
    ∃ (text : String) (record : ρ → List String), listing.render format rows = .ok text ∧
      Csv.read? text.toList =
        some ((if selection.header then [selection.fields] else []) ++ rows.map record) ∧
      ∀ row ∈ rows, ∀ index : Nat, selection.fields[index]? = some "host" →
        (record row)[index]? = some ((host row).getD "")
  json : ∀ format selection,
    select listing.columns listing.aliases (format.getD listing.defaults) = .ok selection →
    selection.mode = .json → "host" ∈ selection.fields →
    ∃ (text : String) (members : ρ → List (String × Json.Value)),
      listing.render format rows = .ok text ∧
      Json.read text.toUTF8.toList = .ok (.array (rows.map fun row => .object (members row))) ∧
      ∀ row ∈ rows, (members row).lookup "host" = some (Objects.valueOf (host row))

theorem Tells.congr (tells : listing.Tells host rows) (same : ∀ row ∈ rows, host row = other row) :
    listing.Tells other rows where
  csv format selection selected mode := by
    obtain ⟨text, record, rendered, read, shown⟩ := tells.csv format selection selected mode
    refine ⟨text, record, rendered, read, fun row member index field => ?_⟩
    rw [← same row member]
    exact shown row member index field
  json format selection selected mode field := by
    obtain ⟨text, members, rendered, read, shown⟩ := tells.json format selection selected mode field
    refine ⟨text, members, rendered, read, fun row member => ?_⟩
    rw [← same row member]
    exact shown row member

theorem render_of_select {format : Option String} {selection : Selection}
    (selected : select listing.columns listing.aliases (format.getD listing.defaults) =
      .ok selection) :
    listing.render format rows =
      Table.render listing.columns selection.fields selection.options rows := by
  unfold Listing.render
  rw [selected]
  rfl

/-- A listing of which a column tells a host. -/
structure HasHosts (listing : Listing ρ) (host : ρ → String) : Prop where
  total : AreTotal listing.columns
  host : ∀ row, cell listing.columns "host" row = host row
  offered : select listing.columns listing.aliases "host,json" =
    .ok { fields := ["host"], others := ["json"] }

theorem tells_meaning {host : ρ → String} (has : listing.HasHosts host) (rows : List ρ) :
    listing.Tells (fun row => meaning (host row)) rows := by
  constructor
  · intro format selection selected mode
    obtain ⟨nonempty, known⟩ := select_ok selected
    obtain ⟨text, rendered, read⟩ := exists_csv has.total nonempty known selection.header rows
    refine ⟨text, _, ?_, read, fun row _ index field => ?_⟩
    · rw [render_of_select selected, ← rendered, Selection.options, mode]
    · rw [List.getElem?_map, field, Option.map_some, has.host]
  · intro format selection selected mode field
    obtain ⟨_, known⟩ := select_ok selected
    obtain ⟨text, rendered, read⟩ := exists_json has.total known selection.header rows
    refine ⟨text, _, ?_, read, fun row _ => ?_⟩
    · rw [render_of_select selected, ← rendered, Selection.options, mode]
    · have within : "host" ∈ selection.fields.eraseDups := List.mem_eraseDups.mpr field
      rw [lookup_map_self within, has.host]

theorem tells_iff {host : ρ → String} (has : listing.HasHosts host) :
    listing.Tells (fun row => some (host row)) rows ↔ ∀ row ∈ rows, host row ≠ notAvailable := by
  constructor
  · intro tells row member same
    have objects : Selection.mode { fields := ["host"], others := ["json"] } = .json := rfl
    obtain ⟨text, members, rendered, read, named⟩ :=
      tells.json (some "host,json") _ has.offered objects List.mem_cons_self
    obtain ⟨otherText, others, otherRendered, otherRead, shown⟩ :=
      (tells_meaning has rows).json (some "host,json") _ has.offered objects List.mem_cons_self
    rw [rendered] at otherRendered
    cases otherRendered
    rw [read] at otherRead
    simp only [Except.ok.injEq, Json.Value.array.injEq, List.map_inj_left,
      Json.Value.object.injEq] at otherRead
    have told := named row member
    rw [otherRead row member, shown row member, meaning, if_pos same] at told
    cases told
  · intro named
    exact (tells_meaning has rows).congr fun row member => if_neg (named row member)

/-- Each host is told by what its name means as a cell, which is the name itself unless that is the
word for what is not available; so names are told as they are exactly if no host has that one. -/
def TellsHosts (listing : Listing ρ) (host : ρ → String) (rows : List ρ) (names : List String) :
    Prop :=
  listing.Tells (fun row => meaning (host row)) rows ∧
    (listing.Tells (fun row => some (host row)) rows ↔ notAvailable ∉ names)

theorem tellsHosts {host : ρ → String} (has : listing.HasHosts host) {names : List String}
    (shown : (∀ row ∈ rows, host row ≠ notAvailable) ↔ notAvailable ∉ names) :
    listing.TellsHosts host rows names :=
  ⟨tells_meaning has rows, (tells_iff has).trans shown⟩

theorem hasHosts_hosts : hosts.HasHosts HostRow.host where
  total := by simp [AreTotal, hosts, Column.always]
  host _ := rfl
  offered := by decide

theorem hasHosts_usage : usage.HasHosts UsageRow.host where
  total := by simp [AreTotal, usage, Column.always]
  host _ := rfl
  offered := by decide

theorem hasHosts_capacity : capacity.HasHosts CapacityRow.host where
  total := by simp [AreTotal, capacity, Column.always]
  host _ := rfl
  offered := by decide

theorem hasHosts_resources : resources.HasHosts ResourceRow.host where
  total := by simp [AreTotal, resources, Column.always]
  host _ := rfl
  offered := by decide

/-- The names in a listing with some rows for each host, and no others. -/
theorem forall_flatMap_iff {β : Type} {entries : List (String × β)} {listed : String × β → List ρ}
    {host : ρ → String} (own : ∀ entry, ∀ row ∈ listed entry, host row = entry.1)
    (some : ∀ entry, listed entry ≠ []) {name : String} :
    (∀ row ∈ entries.flatMap listed, host row ≠ name) ↔ name ∉ entries.map Prod.fst := by
  constructor
  · intro others member
    obtain ⟨entry, within, rfl⟩ := List.mem_map.mp member
    obtain ⟨row, shown⟩ := List.exists_mem_of_ne_nil _ (some entry)
    exact others row (List.mem_flatMap.mpr ⟨entry, within, shown⟩) (own entry row shown)
  · intro absent row member same
    obtain ⟨entry, within, shown⟩ := List.mem_flatMap.mp member
    exact absent (List.mem_map.mpr ⟨entry, within, (own entry row shown).symm.trans same⟩)

end Listing

/-- How the hosts of a report are told in each of the listings that have a column for them. -/
structure Report.HostCells (report : Report Float) (names : List String) : Prop where
  hosts : ∀ states, states ≠ [] →
    Listing.hosts.TellsHosts Listing.HostRow.host (Listing.HostRow.ofReport states report) names
  usage : Listing.usage.TellsHosts Listing.UsageRow.host (Listing.UsageRow.ofReport report) names
  capacity : Listing.capacity.TellsHosts Listing.CapacityRow.host
    (Listing.CapacityRow.ofReport report) names
  resources : ∀ resource, Listing.resources.TellsHosts Listing.ResourceRow.host
    (Listing.ResourceRow.ofReport resource report) names

theorem TimeGrid.points_ne_nil {α : Type} [Scalar α] {window : Window α} {times : List α}
    {grid : TimeGrid α} (built : TimeGrid.build window times = .ok grid) : grid.points ≠ [] := by
  unfold build at built
  obtain ⟨span, _, built⟩ := bind_ok built
  cases built
  unfold ofSpan betweenEnds
  split <;> exact List.cons_ne_nil _ _

theorem Report.mem_names_iff {α : Type} [Scalar α] {document : Document α} {window : Window α}
    {criteria : Option Criteria} {report : Report α}
    (built : Report.build document window criteria = .ok report) {name : String} :
    name ∈ report.timeline.tracks.map Track.name ↔ name ∈ document.hosts.names := by
  obtain ⟨_, tracks⟩ := Timeline.build_eq (Report.build_eq built).1
  rw [tracks, List.map_map, ← document.names_condense criteria]
  exact (HostMap.perm_sorted_names _).mem_iff

theorem Timeline.names_used (timeline : Timeline Float) (resource : Resource) :
    (timeline.resourceCharts resource).used.series.map Prod.fst =
      timeline.tracks.map Track.name := by
  unfold resourceCharts hostChart Chart.align
  rw [List.map_map, List.map_map]
  rfl

section Rows

variable {report : Report Float} {name : String}

theorem Listing.forall_hosts_iff (drawn : report.occupancies = report.timeline.occupancies)
    {states : List PowerState} (some : states ≠ []) :
    (∀ row ∈ HostRow.ofReport states report, row.host ≠ name) ↔
      name ∉ report.timeline.tracks.map Track.name := by
  rw [← report.timeline.names_occupancies, ← drawn]
  refine forall_flatMap_iff ?_ ?_
  · intro entry row member
    obtain ⟨state, _, rfl⟩ := List.mem_map.mp member
    rfl
  · exact fun entry empty => some (List.map_eq_nil_iff.mp empty)

theorem Listing.forall_usage_iff (measured : report.timeline.loads = .ok report.loads) :
    (∀ row ∈ UsageRow.ofReport report, row.host ≠ name) ↔
      name ∉ report.timeline.tracks.map Track.name := by
  rw [← Timeline.names_loads measured]
  refine forall_flatMap_iff ?_ fun entry => List.cons_ne_nil _ _
  intro entry row member
  simp only [List.mem_cons, List.not_mem_nil, or_false] at member
  rcases member with rfl | rfl <;> rfl

/-- The two rows that are no host have names of their own. -/
theorem Listing.forall_capacity_iff (max : name ≠ "*max*") (total : name ≠ "*total*") :
    (∀ row ∈ CapacityRow.ofReport report, row.host ≠ name) ↔
      name ∉ report.timeline.tracks.map Track.name := by
  have hosts : name ∉ report.timeline.tracks.map Track.name ↔
      ∀ track ∈ report.timeline.tracks, track.name ≠ name := by simp
  unfold CapacityRow.ofReport
  simp only [hosts, List.forall_mem_append, List.forall_mem_map, List.forall_mem_cons]
  exact ⟨fun all => all.1, fun all => ⟨all, max.symm, total.symm, by simp⟩⟩

theorem Listing.forall_resources_iff (points : report.timeline.grid.points ≠ [])
    (resource : Resource) :
    (∀ row ∈ ResourceRow.ofReport resource report, row.host ≠ name) ↔
      name ∉ report.timeline.tracks.map Track.name := by
  rw [← report.timeline.names_used resource]
  refine forall_flatMap_iff ?_ ?_
  · intro entry row member
    obtain ⟨index, _, rfl⟩ := List.mem_mapIdx.mp member
    rfl
  · exact fun entry empty => points (List.mapIdx_eq_nil_iff.mp empty)

end Rows

namespace Report

section Built

variable {document : Document Float} {window : Window Float} {criteria : Option Criteria}
  {report : Report Float} (built : Report.build document window criteria = .ok report)
include built

theorem tellsHosts_hosts {states : List PowerState} (some : states ≠ []) :
    Listing.hosts.TellsHosts Listing.HostRow.host (Listing.HostRow.ofReport states report)
      document.hosts.names := by
  obtain ⟨_, _, occupancies, _⟩ := build_eq built
  exact Listing.tellsHosts Listing.hasHosts_hosts
    ((Listing.forall_hosts_iff occupancies some).trans (mem_names_iff built).not)

theorem tellsHosts_usage :
    Listing.usage.TellsHosts Listing.UsageRow.host (Listing.UsageRow.ofReport report)
      document.hosts.names := by
  obtain ⟨_, _, _, loads⟩ := build_eq built
  exact Listing.tellsHosts Listing.hasHosts_usage
    ((Listing.forall_usage_iff loads).trans (mem_names_iff built).not)

theorem tellsHosts_capacity :
    Listing.capacity.TellsHosts Listing.CapacityRow.host (Listing.CapacityRow.ofReport report)
      document.hosts.names :=
  Listing.tellsHosts Listing.hasHosts_capacity
    ((Listing.forall_capacity_iff (by decide) (by decide)).trans (mem_names_iff built).not)

theorem tellsHosts_resources (resource : Resource) :
    Listing.resources.TellsHosts Listing.ResourceRow.host
      (Listing.ResourceRow.ofReport resource report) document.hosts.names := by
  have points := TimeGrid.points_ne_nil (Timeline.build_eq (build_eq built).1).1
  exact Listing.tellsHosts Listing.hasHosts_resources
    ((Listing.forall_resources_iff points resource).trans (mem_names_iff built).not)

theorem hostCells : report.HostCells document.hosts.names where
  hosts _ some := tellsHosts_hosts built some
  usage := tellsHosts_usage built
  capacity := tellsHosts_capacity built
  resources := tellsHosts_resources built

end Built

end Report

/-- A document of one host of that name, which was seen once. -/
def Document.ofHost (name : String) : List UInt8 :=
  ("\x7b\"hostevents\":\x7b" ++ String.ofList (Json.quotedChars name) ++
    ":[\x7b\"t\":0,\"state\":0,\"slots\":4,\"slots_used\":0," ++
    "\"memory\":1024,\"memory_used\":0\x7d]\x7d\x7d").toUTF8.toList

theorem Report.hostCells_wn1 : ∃ document report,
    Document.read (Document.ofHost "wn1") = .ok document ∧
      Report.build document {} none = .ok report ∧ document.hosts.names = ["wn1"] ∧
      report.HostCells document.hosts.names := by
  have checked : (Report.ofText? (Document.ofHost "wn1") none).any (fun found =>
      decide (found.1.hosts.names = ["wn1"])) = true := by
    decide +kernel
  obtain ⟨⟨document, report⟩, found, named⟩ := (Option.any_eq_true _ _).mp checked
  obtain ⟨read, built⟩ := Report.built_of_ofText? found
  exact ⟨document, report, read, built, of_decide_eq_true named, Report.hostCells built⟩

/-- A host whose name is the word for what is not available has none in any of the listings. -/
theorem Report.exists_not_tells : ∃ document report,
    Document.read (Document.ofHost "n/a") = .ok document ∧
      Report.build document {} none = .ok report ∧
      ¬ Listing.hosts.Tells (fun row => some row.host)
        (Listing.HostRow.ofReport PowerState.summarized report) ∧
      ¬ Listing.usage.Tells (fun row => some row.host) (Listing.UsageRow.ofReport report) ∧
      ¬ Listing.capacity.Tells (fun row => some row.host) (Listing.CapacityRow.ofReport report) ∧
      (∀ resource, ¬ Listing.resources.Tells (fun row => some row.host)
        (Listing.ResourceRow.ofReport resource report)) ∧
      Listing.capacity.render (some "host,slots,json") (Listing.CapacityRow.ofReport report) =
        .ok ("[\x7b\"host\":null,\"slots\":\"4\"\x7d,\x7b\"host\":\"*max*\",\"slots\":\"4\"\x7d," ++
          "\x7b\"host\":\"*total*\",\"slots\":\"4\"\x7d]\n") := by
  have checked : (Report.ofText? (Document.ofHost "n/a") none).any (fun found =>
      decide (Table.notAvailable ∈ found.1.hosts.names) &&
        decide (Listing.capacity.render (some "host,slots,json")
          (Listing.CapacityRow.ofReport found.2) =
          .ok ("[\x7b\"host\":null,\"slots\":\"4\"\x7d,\x7b\"host\":\"*max*\",\"slots\":\"4\"\x7d," ++
            "\x7b\"host\":\"*total*\",\"slots\":\"4\"\x7d]\n"))) = true := by
    decide +kernel
  obtain ⟨⟨document, report⟩, found, test⟩ := (Option.any_eq_true _ _).mp checked
  obtain ⟨read, built⟩ := Report.built_of_ofText? found
  simp only [Bool.and_eq_true, decide_eq_true_eq] at test
  refine ⟨document, report, read, built, fun tells => ?_, fun tells => ?_, fun tells => ?_,
    fun resource tells => ?_, test.2⟩
  · exact (Report.tellsHosts_hosts built (by decide)).2.mp tells test.1
  · exact (Report.tellsHosts_usage built).2.mp tells test.1
  · exact (Report.tellsHosts_capacity built).2.mp tells test.1
  · exact (Report.tellsHosts_resources built resource).2.mp tells test.1

end HostTimeline
