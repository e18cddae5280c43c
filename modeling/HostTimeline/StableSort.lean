/-!
Stable sorting by halves.  Merging recurs on its two lists and sorting on a bound for
the depth, both structurally, so that sorted lists can be computed in proofs too.

Main statement: the result is that of the library's merge sort
(`stableSort_eq_mergeSort`), which gives the other laws: it holds the same items
(`perm_stableSort`), in order (`pairwise_stableSort`), and items that are in order
already stay as they are (`stableSort_eq_self`), and selecting items before or after
sorting is the same (`filter_stableSort`).  If no two items come before each other, the
order in which they are given does not matter (`stableSort_eq_of_perm`).
-/

namespace HostTimeline

variable {α : Type}

/-- Merges a list into which `item` comes first, and what `rest` merges after it, with
another one. -/
def mergeFrom (before : α → α → Bool) (item : α) (rest : List α → List α) : List α → List α
  | [] => item :: rest []
  | next :: others =>
      if before item next then item :: rest (next :: others)
      else next :: mergeFrom before item rest others

/-- Merges two lists that are in order.  Of items that come before each other, those
of the first list stay ahead. -/
def mergeInOrder (before : α → α → Bool) : List α → List α → List α
  | [] => fun others => others
  | item :: items => mergeFrom before item (mergeInOrder before items)

/-- Sorts a list that is halved at most `depth` times. -/
def sortByHalves (before : α → α → Bool) : Nat → List α → List α
  | _, [] => []
  | _, [item] => [item]
  | 0, items => items
  | depth + 1, first :: second :: rest =>
      let items := first :: second :: rest
      let half := (items.length + 1) / 2
      mergeInOrder before (sortByHalves before depth (items.take half))
        (sortByHalves before depth (items.drop half))

/-- Sorts by a total preorder.  Items that come before each other keep their order. -/
def stableSort (before : α → α → Bool) (items : List α) : List α :=
  sortByHalves before items.length items

variable {before : α → α → Bool}

theorem mergeInOrder_eq_merge (left right : List α) :
    mergeInOrder before left right = left.merge right before := by
  induction left generalizing right with
  | nil => simp [mergeInOrder]
  | cons item items ih =>
      induction right with
      | nil => simp [mergeInOrder, mergeFrom, ih]
      | cons next others othersIH =>
          rw [List.cons_merge_cons]
          unfold mergeInOrder mergeFrom
          split
          · rw [ih]
          · exact congrArg (next :: ·) othersIH

theorem sortByHalves_eq_mergeSort {depth : Nat} {items : List α}
    (deep : items.length ≤ depth) : sortByHalves before depth items = items.mergeSort before := by
  induction depth generalizing items with
  | zero =>
      have none : items = [] := List.eq_nil_of_length_eq_zero (Nat.le_zero.mp deep)
      simp [none, sortByHalves]
  | succ depth ih =>
      match items with
      | [] => simp [sortByHalves]
      | [item] => simp [sortByHalves]
      | first :: second :: rest =>
          rw [sortByHalves, List.mergeSort, mergeInOrder_eq_merge]
          simp only [List.MergeSort.Internal.splitInTwo_fst,
            List.MergeSort.Internal.splitInTwo_snd]
          rw [ih (by simp only [List.length_take, List.length_cons] at *; omega),
            ih (by simp only [List.length_drop, List.length_cons] at *; omega)]

theorem stableSort_eq_mergeSort (items : List α) :
    stableSort before items = items.mergeSort before :=
  sortByHalves_eq_mergeSort (Nat.le_refl _)

theorem perm_stableSort (items : List α) : (stableSort before items).Perm items :=
  stableSort_eq_mergeSort items ▸ List.mergeSort_perm items before

@[simp]
theorem mem_stableSort {item : α} {items : List α} :
    item ∈ stableSort before items ↔ item ∈ items :=
  (perm_stableSort items).mem_iff

@[simp]
theorem length_stableSort (items : List α) :
    (stableSort before items).length = items.length :=
  (perm_stableSort items).length_eq

theorem pairwise_stableSort
    (total : ∀ left right, (before left right || before right left) = true)
    (trans : ∀ left middle right, before left middle = true → before middle right = true →
      before left right = true)
    (items : List α) :
    (stableSort before items).Pairwise fun left right => before left right := by
  rw [stableSort_eq_mergeSort]
  exact List.pairwise_mergeSort trans total items

theorem stableSort_eq_self {items : List α}
    (ordered : items.Pairwise fun left right => before left right) :
    stableSort before items = items := by
  rw [stableSort_eq_mergeSort]
  exact List.mergeSort_of_pairwise ordered

theorem stableSort_eq_of_perm
    (total : ∀ left right, (before left right || before right left) = true)
    (trans : ∀ left middle right, before left middle = true → before middle right = true →
      before left right = true)
    {items others : List α} (same : items.Perm others)
    (antisymm : ∀ left ∈ items, ∀ right ∈ items, before left right = true →
      before right left = true → left = right) :
    stableSort before items = stableSort before others := by
  refine List.Perm.eq_of_pairwise ?_ (pairwise_stableSort total trans items)
    (pairwise_stableSort total trans others)
    ((perm_stableSort items).trans (same.trans (perm_stableSort others).symm))
  intro left right leftIn rightIn
  exact antisymm left (mem_stableSort.mp leftIn) right (same.mem_iff.mpr (mem_stableSort.mp rightIn))

/-- A list is split in one way only into items that fail a test and items that pass it. -/
theorem split_unique {test : α → Bool} {left right other next : List α}
    (same : left ++ right = other ++ next) (leftFails : ∀ item ∈ left, (!test item) = true)
    (otherFails : ∀ item ∈ other, (!test item) = true) (rightPasses : ∀ item ∈ right, test item)
    (nextPasses : ∀ item ∈ next, test item) : left = other ∧ right = next := by
  have taken {ahead behind : List α} (fails : ∀ item ∈ ahead, (!test item) = true)
      (passes : ∀ item ∈ behind, test item) :
      (ahead ++ behind).takeWhile (fun item => !test item) = ahead := by
    rw [List.takeWhile_append_of_pos fails]
    cases behind with
    | nil => simp
    | cons item rest => simp [passes item List.mem_cons_self]
  have ahead : left = other := by
    rw [← taken leftFails rightPasses, same, taken otherFails nextPasses]
  subst ahead
  exact ⟨rfl, List.append_cancel_left same⟩

theorem filter_stableSort
    (total : ∀ left right, (before left right || before right left) = true)
    (trans : ∀ left middle right, before left middle = true → before middle right = true →
      before left right = true)
    (keep : α → Bool) (items : List α) :
    (stableSort before items).filter keep = stableSort before (items.filter keep) := by
  simp only [stableSort_eq_mergeSort]
  induction items with
  | nil => simp
  | cons item items ih =>
      have ordered := List.pairwise_mergeSort trans total (item :: items)
      obtain ⟨ahead, behind, placed, rest, later⟩ := List.mergeSort_cons trans total item items
      rw [placed] at ordered ⊢
      rw [rest, List.filter_append] at ih
      have behindBefore : ∀ other ∈ behind, before item other := fun other member =>
        List.rel_of_pairwise_cons (List.pairwise_append.mp ordered).2.1 member
      cases kept : keep item with
      | false => simp [kept, ih]
      | true =>
          rw [List.filter_cons_of_pos kept]
          have keptOrdered := List.pairwise_mergeSort trans total (item :: items.filter keep)
          obtain ⟨keptAhead, keptBehind, keptPlaced, keptRest, keptLater⟩ :=
            List.mergeSort_cons trans total item (items.filter keep)
          rw [keptPlaced] at keptOrdered ⊢
          have keptBefore : ∀ other ∈ keptBehind, before item other := fun other member =>
            List.rel_of_pairwise_cons (List.pairwise_append.mp keptOrdered).2.1 member
          obtain ⟨sameAhead, sameBehind⟩ := split_unique (ih.trans keptRest)
            (fun other member => later other (List.mem_filter.mp member).1) keptLater
            (fun other member => behindBefore other (List.mem_filter.mp member).1) keptBefore
          rw [List.filter_append, List.filter_cons_of_pos kept, sameAhead, sameBehind]

/-- Sorting commutes with a change of the items that their order does not depend on. -/
theorem map_stableSort {β : Type} {other : β → β → Bool} {change : α → β}
    (same : ∀ left right, before left right = other (change left) (change right))
    (items : List α) :
    (stableSort before items).map change = stableSort other (items.map change) := by
  rw [stableSort_eq_mergeSort, stableSort_eq_mergeSort]
  exact List.map_mergeSort fun left _ right _ => same left right

end HostTimeline
