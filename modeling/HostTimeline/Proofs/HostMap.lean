import HostTimeline.HostMap
import Mathlib.Data.List.Nodup
import Mathlib.Data.String.Basic

/-!
The entries of a map: those it was made from, and their order by name, which what is found under
each name decides (`perm_of_find?`, `sorted_eq_of_perm`).
-/

namespace HostTimeline

variable {β : Type}

theorem lookup_of_mem {entries : List (String × β)} {entry : String × β}
    (distinct : (entries.map Prod.fst).Nodup) (member : entry ∈ entries) :
    entries.lookup entry.1 = some entry.2 := by
  induction entries with
  | nil => cases member
  | cons first rest ih =>
      rw [List.map_cons, List.nodup_cons] at distinct
      rw [lookup_entry_cons]
      rcases List.mem_cons.mp member with same | later
      · rw [if_pos (congrArg Prod.fst same), same]
      · have named : entry.1 ∈ rest.map Prod.fst := List.mem_map_of_mem later
        have differs : ¬ entry.1 = first.1 := fun same => distinct.1 (same ▸ named)
        rw [if_neg differs]
        exact ih distinct.2 later

theorem lookup_map_of_mem {γ : Type} {items : List γ} {name : γ → String}
    (distinct : (items.map name).Nodup) {item : γ} (member : item ∈ items) (value : γ → β) :
    (items.map fun item => (name item, value item)).lookup (name item) = some (value item) := by
  have named : ((items.map fun item => (name item, value item)).map Prod.fst).Nodup := by
    rwa [List.map_map]
  exact lookup_of_mem named (List.mem_map_of_mem member)

/-- Of equal names the first decides, and all of them have the same value. -/
theorem lookup_map_self {names : List String} {name : String} (member : name ∈ names)
    (value : String → β) :
    (names.map fun name => (name, value name)).lookup name = some (value name) := by
  induction names with
  | nil => cases member
  | cons first rest ih =>
      rw [List.map_cons, lookup_entry_cons]
      split
      next same => rw [same]
      next other => exact ih ((List.mem_cons.mp member).resolve_left other)

theorem mem_setEntry {name : String} {value : β} {entries : List (String × β)}
    {entry : String × β} (member : entry ∈ setEntry name value entries) :
    entry = (name, value) ∨ entry ∈ entries := by
  induction entries with
  | nil => exact .inl (List.mem_singleton.mp member)
  | cons first rest ih =>
      unfold setEntry at member
      split at member
      · rcases List.mem_cons.mp member with same | later
        · exact .inl same
        · exact .inr (List.mem_cons_of_mem _ later)
      · rcases List.mem_cons.mp member with same | later
        · exact .inr (same ▸ List.mem_cons_self)
        · exact (ih later).imp_right (List.mem_cons_of_mem _)

theorem setEntry_of_new {name : String} {value : β} {entries : List (String × β)}
    (new : name ∉ entries.map Prod.fst) : setEntry name value entries = entries ++ [(name, value)] := by
  induction entries with
  | nil => rfl
  | cons first rest ih =>
      rw [List.map_cons, List.mem_cons, not_or] at new
      rw [setEntry, if_neg (Ne.symm new.1), ih new.2, List.cons_append]

theorem foldl_setEntry {before entries : List (String × β)}
    (distinct : ((before ++ entries).map Prod.fst).Nodup) :
    entries.foldl (fun all entry => setEntry entry.1 entry.2 all) before = before ++ entries := by
  induction entries generalizing before with
  | nil => exact (List.append_nil _).symm
  | cons first rest ih =>
      have new : first.1 ∉ before.map Prod.fst := by
        rw [List.map_append, List.map_cons] at distinct
        exact fun early => (List.nodup_append.mp distinct).2.2 _ early _ List.mem_cons_self rfl
      rw [List.foldl_cons, setEntry_of_new new, ih (by simpa using distinct), List.append_assoc]
      rfl

namespace HostMap

theorem entries_foldl_set (entries : List (String × β)) (hosts : HostMap β) :
    (entries.foldl (fun hosts entry => hosts.set entry.1 entry.2) hosts).entries =
      entries.foldl (fun all entry => setEntry entry.1 entry.2 all) hosts.entries := by
  induction entries generalizing hosts with
  | nil => rfl
  | cons first rest ih => exact ih (hosts.set first.1 first.2)

theorem entries_ofList {entries : List (String × β)} (distinct : (entries.map Prod.fst).Nodup) :
    (ofList entries).entries = entries :=
  (entries_foldl_set entries empty).trans (foldl_setEntry distinct)

theorem mem_foldl_set {hosts : HostMap β} {entries : List (String × β)} {entry : String × β}
    (member : entry ∈ (entries.foldl (fun hosts entry => hosts.set entry.1 entry.2) hosts).entries) :
    entry ∈ hosts.entries ∨ entry ∈ entries := by
  induction entries generalizing hosts with
  | nil => exact .inl member
  | cons first rest ih =>
      rcases ih member with early | later
      · rcases mem_setEntry early with same | before
        · exact .inr (same ▸ List.mem_cons_self)
        · exact .inl before
      · exact .inr (List.mem_cons_of_mem _ later)

theorem mem_ofList {entries : List (String × β)} {entry : String × β}
    (member : entry ∈ (ofList entries).entries) : entry ∈ entries :=
  (mem_foldl_set member).resolve_left (by simp [empty])

theorem perm_sorted (hosts : HostMap β) : hosts.sorted.Perm hosts.entries :=
  perm_stableSort hosts.entries

theorem perm_sorted_names (hosts : HostMap β) : (hosts.sorted.map Prod.fst).Perm hosts.names :=
  hosts.perm_sorted.map Prod.fst

theorem forall_sorted_iff (hosts : HostMap β) (test : β → Prop) :
    (∀ entry ∈ hosts.sorted, test entry.2) ↔ ∀ value ∈ hosts.values, test value := by
  constructor
  · intro all value member
    obtain ⟨entry, found, rfl⟩ := List.mem_map.mp member
    exact all entry (hosts.perm_sorted.mem_iff.mpr found)
  · intro all entry member
    exact all entry.2 (List.mem_map_of_mem (hosts.perm_sorted.mem_iff.mp member))

theorem sorted_map {γ : Type} (change : String → β → γ) (hosts : HostMap β) :
    (hosts.map change).sorted = hosts.sorted.map fun entry => (entry.1, change entry.1 entry.2) := by
  have byName : ∀ left right : String × β, decide (left.1 ≤ right.1) =
      decide ((left.1, change left.1 left.2).1 ≤ (right.1, change right.1 right.2).1) :=
    fun _ _ => rfl
  exact (map_stableSort byName hosts.entries).symm

theorem values_map {γ : Type} (change : β → γ) (hosts : HostMap β) :
    (hosts.map fun _ => change).values = hosts.values.map change := by
  unfold values map
  rw [List.map_map, List.map_map]
  rfl

theorem find?_map {γ : Type} (change : String → β → γ) (hosts : HostMap β) (name : String) :
    (hosts.map change).find? name = (hosts.find? name).map (change name) := by
  obtain ⟨entries, distinct⟩ := hosts
  change (entries.map fun entry => (entry.1, change entry.1 entry.2)).lookup name =
    (entries.lookup name).map (change name)
  clear distinct
  induction entries with
  | nil => rfl
  | cons first rest ih =>
      rw [List.map_cons, lookup_entry_cons, lookup_entry_cons, ih]
      split
      next same => rw [same, Option.map_some]
      next => rfl

theorem mem_of_find? {hosts : HostMap β} {name : String} {value : β}
    (found : hosts.find? name = some value) : (name, value) ∈ hosts.entries := by
  obtain ⟨before, after, split, _⟩ := List.lookup_eq_some_iff.mp found
  simp [split]

theorem mem_values_of_find? {hosts : HostMap β} {name : String} {value : β}
    (found : hosts.find? name = some value) : value ∈ hosts.values :=
  List.mem_map_of_mem (mem_of_find? found)

section ByName

theorem byName_total (first second : String × β) :
    (decide (first.1 ≤ second.1) || decide (second.1 ≤ first.1)) = true := by
  simp only [Bool.or_eq_true, decide_eq_true_eq]
  exact String.le_total first.1 second.1

theorem byName_trans (first second third : String × β) (before : decide (first.1 ≤ second.1) = true)
    (after : decide (second.1 ≤ third.1) = true) : decide (first.1 ≤ third.1) = true :=
  decide_eq_true (String.le_trans (of_decide_eq_true before) (of_decide_eq_true after))

theorem pairwise_sorted_names (hosts : HostMap β) :
    (hosts.sorted.map Prod.fst).Pairwise (· < ·) := by
  have distinct : (hosts.sorted.map Prod.fst).Nodup :=
    hosts.perm_sorted_names.nodup_iff.mpr hosts.distinct
  have sorted := pairwise_stableSort byName_total byName_trans hosts.entries
  have ordered : (hosts.sorted.map Prod.fst).Pairwise (· ≤ ·) :=
    List.pairwise_map.mpr (sorted.imp of_decide_eq_true)
  exact (ordered.and distinct).imp fun ⟨le, differ⟩ => lt_of_le_of_ne le differ

theorem sorted_eq_of_perm {left right : HostMap β} (same : left.entries.Perm right.entries) :
    left.sorted = right.sorted := by
  refine stableSort_eq_of_perm byName_total byName_trans same ?_
  intro first firstIn second secondIn before after
  have named : first.1 = second.1 :=
    String.le_antisymm (of_decide_eq_true before) (of_decide_eq_true after)
  have found := lookup_of_mem left.distinct firstIn
  rw [named, lookup_of_mem left.distinct secondIn] at found
  exact Prod.ext named (Option.some.inj found).symm

end ByName

theorem mem_entries_iff {hosts : HostMap β} {entry : String × β} :
    entry ∈ hosts.entries ↔ hosts.find? entry.1 = some entry.2 :=
  ⟨lookup_of_mem hosts.distinct, mem_of_find?⟩

theorem find?_eq_of_perm {left right : HostMap β} (same : left.entries.Perm right.entries)
    (name : String) : left.find? name = right.find? name := by
  refine Option.ext fun value => ?_
  have found := @mem_entries_iff β left (name, value)
  have other := @mem_entries_iff β right (name, value)
  rw [← found, ← other, same.mem_iff]

theorem perm_of_find? {left right : HostMap β}
    (same : ∀ name, left.find? name = right.find? name) : left.entries.Perm right.entries := by
  refine (List.perm_ext_iff_of_nodup (.of_map _ left.distinct) (.of_map _ right.distinct)).mpr ?_
  intro entry
  rw [mem_entries_iff, mem_entries_iff, same]

end HostMap

end HostTimeline
