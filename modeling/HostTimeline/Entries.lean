/-!
Lists of named entries, in order of the first occurrence of each name.

Main statements: setting an entry adds its name and no other (`mem_names_setEntry`),
keeps names distinct (`nodup_names_setEntry`), and changes what is found under that
name only (`lookup_setEntry`).
-/

namespace HostTimeline

variable {β : Type}

/-- Replaces the value of a name, in its place, or appends a new entry. -/
def setEntry (name : String) (value : β) : List (String × β) → List (String × β)
  | [] => [(name, value)]
  | entry :: rest =>
      if entry.1 = name then (name, value) :: rest else entry :: setEntry name value rest

theorem mem_names_setEntry {name other : String} {value : β} {entries : List (String × β)} :
    other ∈ (setEntry name value entries).map Prod.fst ↔
      other = name ∨ other ∈ entries.map Prod.fst := by
  induction entries with
  | nil => simp [setEntry]
  | cons entry rest ih =>
      unfold setEntry
      split
      · next same => simp [same]
      · simp only [List.map_cons, List.mem_cons, ih]
        grind

theorem nodup_names_setEntry {name : String} {value : β} {entries : List (String × β)}
    (distinct : (entries.map Prod.fst).Nodup) :
    ((setEntry name value entries).map Prod.fst).Nodup := by
  induction entries with
  | nil => simp [setEntry]
  | cons entry rest ih =>
      simp only [List.map_cons, List.nodup_cons] at distinct
      unfold setEntry
      split
      · next same => simpa [← same] using distinct
      · next differs =>
          simp only [List.map_cons, List.nodup_cons, mem_names_setEntry]
          exact ⟨by grind, ih distinct.2⟩

theorem lookup_entry_cons {name other : String} {value : β} {rest : List (String × β)} :
    ((name, value) :: rest).lookup other =
      if other = name then some value else rest.lookup other := by
  rw [List.lookup_cons]
  by_cases same : other = name
  · simp [same]
  · simp [same, beq_eq_false_iff_ne.mpr same]

theorem lookup_setEntry {name other : String} {value : β} {entries : List (String × β)} :
    (setEntry name value entries).lookup other =
      if other = name then some value else entries.lookup other := by
  induction entries with
  | nil => exact lookup_entry_cons
  | cons entry rest ih =>
      obtain ⟨first, kept⟩ := entry
      by_cases here : first = name
      · subst here
        simp only [setEntry, if_pos, lookup_entry_cons]
        split <;> rfl
      · simp only [setEntry, if_neg here, lookup_entry_cons, ih]
        grind

end HostTimeline
