import HostTimeline.Proofs.Alignment
import HostTimeline.Proofs.Number.Greatest

/-!
Resampling on any grid.  The walk never moves back, so what it shows at a point is the last item
before the first one that lies beyond the greatest point so far (`getElem?_carryForward`).  On an
ascending grid this is the point itself, and what is shown there does not depend on the other points
(`showsReached`).
-/

namespace HostTimeline

open OrderedScalar

variable {α β : Type} [Scalar α] {position : β → α} {moveTo : β → α → β}

/-- One of the values, and not below any of them. -/
structure Scalar.IsGreatest (values : List α) (greatest : α) : Prop where
  member : greatest ∈ values
  above : ∀ value ∈ values, value ≤ greatest

/-- The longest start of a list of which all items pass a test. -/
structure IsLongestStart (test : β → Prop) (items start : List β) : Prop where
  isStart : start <+: items
  passes : ∀ item ∈ start, test item
  longest : ∀ other, other <+: items → (∀ item ∈ other, test item) → other <+: start

/-- What a walk through the items shows at each point of a grid.  The clauses for ascending grids
say that it is the last item at or before the point, also if other points of the grid are left
out. -/
structure ShowsReached (position : β → α) (moveTo : β → α → β) (current : β) (items : List β)
    (grid : List α) : Prop where
  length : (carryForward position moveTo current items grid).length = grid.length
  reached : ∀ (index : Nat) (point : α), grid[index]? = some point →
    ∃ greatest taken, Scalar.IsGreatest (grid.take (index + 1)) greatest ∧
      IsLongestStart (fun item => position item ≤ greatest) items taken ∧
      (carryForward position moveTo current items grid)[index]? =
        some (moveTo (taken.getLast?.getD current) point)
  latest : (items.Pairwise fun left right => position left ≤ position right) →
    grid.Pairwise (· ≤ ·) → ∀ (index : Nat) (point : α), grid[index]? = some point →
      (carryForward position moveTo current items grid)[index]? = some (moveTo
        ((items.filter fun item => decide (position item ≤ point)).getLast?.getD current) point)
  parts : grid.Pairwise (· ≤ ·) → ∀ part, part.Sublist grid →
    (carryForward position moveTo current items part).Sublist
        (carryForward position moveTo current items grid) ∧
      ∀ place index : Nat, part[place]? = grid[index]? →
        (carryForward position moveTo current items part)[place]? =
          (carryForward position moveTo current items grid)[index]?

theorem isLongestStart_takeWhile (test : β → Prop) [DecidablePred test] (items : List β) :
    IsLongestStart test items (items.takeWhile fun item => decide (test item)) where
  isStart := List.takeWhile_prefix _
  passes item member := by
    have passed := List.mem_takeWhile_imp member
    exact of_decide_eq_true passed
  longest other starts passes := by
    obtain ⟨rest, rfl⟩ := starts
    rw [List.takeWhile_append_of_pos (by simpa using passes)]
    exact List.prefix_append _ _

variable [OrderedScalar α]

theorem exists_isGreatest {values : List α} (nonempty : values ≠ [])
    (comparable : ∀ value ∈ values, value ≤ value) :
    ∃ greatest, Scalar.IsGreatest values greatest := by
  obtain ⟨first, rest, rfl⟩ := List.exists_cons_of_ne_nil nonempty
  obtain ⟨here, later⟩ := List.forall_mem_cons.mp comparable
  obtain ⟨grown, above⟩ := le_foldl_greater rest here
  exact ⟨_, foldl_greater_mem rest first,
    List.forall_mem_cons.mpr ⟨grown, fun value member => above value member (later value member)⟩⟩

/-- Walking to one point and on to another takes up what lies before the greater one. -/
theorem takeWhile_append_dropWhile {point next greatest : α} (le : point ≤ greatest)
    (nextLe : next ≤ greatest) (least : greatest ≤ point ∨ greatest ≤ next) (items : List β) :
    (items.takeWhile fun item => decide (position item ≤ point)) ++
        ((items.dropWhile fun item => decide (position item ≤ point)).takeWhile
          fun item => decide (position item ≤ next)) =
      items.takeWhile fun item => decide (position item ≤ greatest) := by
  induction items with
  | nil => rfl
  | cons item rest ih =>
      by_cases here : position item ≤ point
      · simpa [here, le_trans here le] using ih
      · -- the walk has stopped at this item, and only a next point that is greater goes on
        have reached_iff : position item ≤ next ↔ position item ≤ greatest := by
          refine ⟨fun reached => le_trans reached nextLe, fun reached => ?_⟩
          rcases least with low | high
          · exact absurd (le_trans reached low) here
          · exact le_trans reached high
        by_cases further : position item ≤ greatest
        · have high := least.resolve_left fun low => here (le_trans further low)
          have same (other : β) : decide (position other ≤ next) = decide (position other ≤ greatest) :=
            decide_eq_decide.mpr
              ⟨fun reached => le_trans reached nextLe, fun reached => le_trans reached high⟩
          simp [here, same]
        · simp [here, further, reached_iff]

theorem getElem?_carryForward (current : β) (items : List β) {grid : List α}
    (comparable : ∀ point ∈ grid, point ≤ point) {index : Nat} {point greatest : α}
    (found : grid[index]? = some point)
    (isGreatest : Scalar.IsGreatest (grid.take (index + 1)) greatest) :
    (carryForward position moveTo current items grid)[index]? = some (moveTo
      ((items.takeWhile fun item => decide (position item ≤ greatest)).getLast?.getD current)
        point) := by
  induction grid generalizing current items index greatest with
  | nil => cases found
  | cons first rest ih =>
      cases index with
      | zero =>
          obtain rfl := Option.some.inj found
          obtain rfl := List.mem_singleton.mp isGreatest.member
          rfl
      | succ index =>
          rw [List.getElem?_cons_succ] at found
          obtain ⟨here, later⟩ := List.forall_mem_cons.mp comparable
          have inside := (List.getElem?_eq_some_iff.mp found).1
          obtain ⟨next, isNext⟩ : ∃ next, Scalar.IsGreatest (rest.take (index + 1)) next :=
            exists_isGreatest (by simpa using List.ne_nil_of_length_pos (by omega))
              fun value member => later value (List.mem_of_mem_take member)
          rw [List.take_succ_cons] at isGreatest
          obtain ⟨le, above⟩ := List.forall_mem_cons.mp isGreatest.above
          have least : greatest ≤ first ∨ greatest ≤ next := by
            rcases List.mem_cons.mp isGreatest.member with rfl | later
            · exact .inl here
            · exact .inr (isNext.above greatest later)
          rw [carryForward, List.getElem?_cons_succ, ih _ _ later found isNext,
            ← takeWhile_append_dropWhile le (above next isNext.member) least,
            List.getLast?_append, Option.getD_or]

theorem showsReached_of_comparable (position : β → α) (moveTo : β → α → β) (current : β)
    (items : List β) {grid : List α} (comparable : ∀ point ∈ grid, point ≤ point) :
    ShowsReached position moveTo current items grid where
  length := length_carryForward position moveTo current items grid
  reached index point found := by
    have nonempty : grid.take (index + 1) ≠ [] := by
      have inside := (List.getElem?_eq_some_iff.mp found).1
      exact List.ne_nil_of_length_pos (by rw [List.length_take]; omega)
    obtain ⟨greatest, isGreatest⟩ := exists_isGreatest nonempty
      fun value member => comparable value (List.mem_of_mem_take member)
    exact ⟨greatest, _, isGreatest, isLongestStart_takeWhile _ items,
      getElem?_carryForward current items comparable found isGreatest⟩
  latest ascending gridAscending index point found := by
    rw [carryForward_eq_map _ _ _ _ gridAscending, List.getElem?_map, found, Option.map_some,
      ← getLast?_takeWhile_eq_latestAt, takeWhile_reached point ascending]
  parts ascending part isPart := by
    rw [carryForward_eq_map _ _ _ _ ascending, carryForward_eq_map _ _ _ _ (ascending.sublist isPart)]
    refine ⟨isPart.map _, fun place index same => ?_⟩
    rw [List.getElem?_map, List.getElem?_map, same]

theorem showsReached (position : β → Float) (moveTo : β → Float → β) (current : β) (items : List β)
    {grid : List Float} (numbers : ∀ point ∈ grid, point.isNaN = false) :
    ShowsReached position moveTo current items grid :=
  showsReached_of_comparable position moveTo current items fun point member =>
    Binary64.le_self_of_number (numbers point member)

def unsortedItems : List (Float × Char) :=
  [(1.0, 'b'), (6.0, 'c'), (2.0, 'd'), (8.0, 'e'), (7.0, 'f')]

/-- The third point lies before the second one, where three of the items were taken up. -/
def unsortedPoints : List Float :=
  [3.0, 7.0, 2.0, 9.0]

theorem showsReached_unsorted :
    (∀ point ∈ unsortedPoints, point.isNaN = false) ∧
      ShowsReached Prod.fst (fun item point => (point, item.2)) (0.0, 'a') unsortedItems
        unsortedPoints ∧
      carryForward Prod.fst (fun item point => (point, item.2)) (0.0, 'a') unsortedItems
          unsortedPoints = [(3.0, 'b'), (7.0, 'd'), (2.0, 'd'), (9.0, 'f')] := by
  have numbers : ∀ point ∈ unsortedPoints, point.isNaN = false := by decide +kernel
  exact ⟨numbers, showsReached Prod.fst _ _ _ numbers, by decide +kernel⟩

end HostTimeline
