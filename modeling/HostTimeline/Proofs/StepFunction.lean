import HostTimeline.StepFunction
import HostTimeline.Proofs.Number.Order

/-!
What a resampled step function shows at a point.  On an ascending grid the lockstep walk is
a look-up of the latest item at each point (`carryForward_eq_map`), which for ascending
items is told by their positions alone (`latestAt_exists`), so that functions with the same
positions are read at the same place (`IsLastReached.latestAt`).
-/

namespace HostTimeline

variable {α β : Type} [Scalar α] {position : β → α}

/-- The last item before the first one that lies beyond the point. -/
def latestAt (position : β → α) (current : β) : List β → α → β
  | [], _ => current
  | item :: rest, point => if position item ≤ point then latestAt position item rest point else current

theorem getLast?_takeWhile_eq_latestAt (current : β) (items : List β) (point : α) :
    (items.takeWhile fun item => decide (position item ≤ point)).getLast?.getD current =
      latestAt position current items point := by
  induction items generalizing current with
  | nil => rfl
  | cons item rest ih =>
      by_cases reached : position item ≤ point
      · simp [latestAt, reached, List.getLast?_cons, ih item]
      · simp [latestAt, reached]

theorem latestAt_mem (current : β) (items : List β) (point : α) :
    latestAt position current items point ∈ current :: items := by
  induction items generalizing current with
  | nil => exact List.mem_cons_self
  | cons item rest ih =>
      unfold latestAt
      split
      · exact List.mem_cons_of_mem _ (ih item)
      · exact List.mem_cons_self

theorem map_carryForward {moveTo : β → α → β}
    (moved : ∀ item point, position (moveTo item point) = point) (current : β) (items : List β)
    (grid : List α) : (carryForward position moveTo current items grid).map position = grid := by
  induction grid generalizing current items with
  | nil => rfl
  | cons point grid ih => simp only [carryForward, List.map_cons, moved, ih]

/-- What a resampled function shows is an item, or what it starts from, moved to a point. -/
theorem mem_carryForward {moveTo : β → α → β} {current result : β} {items : List β} {grid : List α}
    (member : result ∈ carryForward position moveTo current items grid) :
    ∃ item ∈ current :: items, ∃ point ∈ grid, result = moveTo item point := by
  induction grid generalizing current items with
  | nil => cases member
  | cons point grid ih =>
      simp only [carryForward, getLast?_takeWhile_eq_latestAt] at member
      have latest : latestAt position current items point ∈ current :: items :=
        latestAt_mem current items point
      rcases List.mem_cons.mp member with here | later
      · exact ⟨_, latest, point, List.mem_cons_self, here⟩
      · obtain ⟨item, found, place, placed, same⟩ := ih later
        refine ⟨item, ?_, place, List.mem_cons_of_mem _ placed, same⟩
        rcases List.mem_cons.mp found with rfl | unread
        · exact latest
        · exact List.mem_cons_of_mem _ ((List.dropWhile_sublist _).subset unread)

theorem carryForward_of_beyond {moveTo : β → α → β} (current : β) {items : List β} {point : α}
    (beyond : ∀ item ∈ items, ¬ position item ≤ point) (grid : List α) :
    carryForward position moveTo current items (point :: grid) =
      moveTo current point :: carryForward position moveTo current items grid := by
  cases items with
  | nil => rfl
  | cons item rest => simp [carryForward, beyond item List.mem_cons_self]

theorem carryForward_of_reached {moveTo : β → α → β} (current : β) {item : β} {rest : List β}
    {point : α} (reached : position item ≤ point)
    (beyond : ∀ other ∈ rest, ¬ position other ≤ point) (grid : List α) :
    carryForward position moveTo current (item :: rest) (point :: grid) =
      moveTo item point :: carryForward position moveTo item rest grid := by
  cases rest with
  | nil => simp [carryForward, reached]
  | cons next rest => simp [carryForward, reached, beyond next List.mem_cons_self]

/-- Items that no point reaches are never taken up. -/
theorem carryForward_of_unreached {moveTo : β → α → β} (current : β) {items : List β}
    {grid : List α} (beyond : ∀ point ∈ grid, ∀ item ∈ items, ¬ position item ≤ point) :
    carryForward position moveTo current items grid = grid.map (moveTo current) := by
  induction grid with
  | nil => rfl
  | cons point grid ih =>
      obtain ⟨here, later⟩ := List.forall_mem_cons.mp beyond
      rw [carryForward_of_beyond current here, ih later, List.map_cons]

/-- The place of the last of some positions that a point has reached. -/
structure IsLastReached (positions : List α) (point : α) (index : Nat) : Prop where
  reached : ∃ position, positions[index]? = some position ∧ position ≤ point
  beyond : ∀ later position, index < later → positions[later]? = some position →
    ¬ position ≤ point

theorem IsLastReached.unique {positions : List α} {point : α} {index other : Nat}
    (first : IsLastReached positions point index)
    (second : IsLastReached positions point other) : index = other := by
  obtain ⟨position, found, reached⟩ := first.reached
  obtain ⟨next, nextFound, nextReached⟩ := second.reached
  rcases Nat.lt_trichotomy index other with before | same | after
  · exact absurd nextReached (first.beyond other next before nextFound)
  · exact same
  · exact absurd reached (second.beyond index position after found)

variable [OrderedScalar α]

open OrderedScalar

/-- Walking on from an earlier point shows the same as looking up from the start. -/
theorem latestAt_dropWhile (current : β) (items : List β) {point later : α} (le : point ≤ later) :
    latestAt position (latestAt position current items point)
        (items.dropWhile fun item => decide (position item ≤ point)) later =
      latestAt position current items later := by
  induction items generalizing current with
  | nil => rfl
  | cons item rest ih =>
      by_cases reached : position item ≤ point
      · have reachedLater : position item ≤ later := le_trans reached le
        simpa [latestAt, reached, reachedLater] using ih item
      · simp [latestAt, reached]

theorem carryForward_eq_map (position : β → α) (moveTo : β → α → β) (current : β) (items : List β) {grid : List α}
    (ascending : grid.Pairwise (· ≤ ·)) :
    carryForward position moveTo current items grid =
      grid.map fun point => moveTo (latestAt position current items point) point := by
  induction grid generalizing current items with
  | nil => rfl
  | cons point grid ih =>
      obtain ⟨below, ascendingRest⟩ := List.pairwise_cons.mp ascending
      simp only [carryForward, List.map_cons, getLast?_takeWhile_eq_latestAt]
      rw [ih _ _ ascendingRest]
      congr 1
      refine List.map_congr_left ?_
      intro later member
      rw [latestAt_dropWhile current items (below later member)]

theorem latestAt_exists (current : β) {items : List β} (point : α)
    (ascending : items.Pairwise fun left right => position left ≤ position right) :
    ∃ index, (current :: items)[index]? = some (latestAt position current items point) ∧
      (index = 0 ∨ position (latestAt position current items point) ≤ point) ∧
      ∀ later item, index < later → (current :: items)[later]? = some item →
        ¬ position item ≤ point := by
  induction items generalizing current with
  | nil =>
      refine ⟨0, rfl, .inl rfl, ?_⟩
      intro later item after found
      simp [Nat.pos_iff_ne_zero.mp after] at found
  | cons first rest ih =>
      obtain ⟨below, ascendingRest⟩ := List.pairwise_cons.mp ascending
      by_cases reached : position first ≤ point
      · obtain ⟨index, found, low, beyond⟩ := ih first ascendingRest
        rw [latestAt, if_pos reached]
        refine ⟨index + 1, found, .inr ?_, ?_⟩
        · rcases low with zero | low
          · subst zero
            rw [List.getElem?_cons_zero, Option.some.injEq] at found
            exact found ▸ reached
          · exact low
        · intro later item after found
          obtain ⟨later, rfl⟩ : ∃ earlier, later = earlier + 1 := ⟨later - 1, by omega⟩
          exact beyond later item (by omega) found
      · rw [latestAt, if_neg reached]
        refine ⟨0, rfl, .inl rfl, ?_⟩
        intro later item after found itemReached
        obtain ⟨later, rfl⟩ : ∃ earlier, later = earlier + 1 := ⟨later - 1, by omega⟩
        rw [List.getElem?_cons_succ] at found
        rcases List.mem_cons.mp (List.mem_of_getElem? found) with isFirst | member
        · exact reached (isFirst ▸ itemReached)
        · exact reached (le_trans (below item member) itemReached)

theorem exists_isLastReached (current : β) {items : List β} {point : α}
    (ascending : items.Pairwise fun left right => position left ≤ position right)
    (reached : ∃ item ∈ items, position item ≤ point) :
    ∃ index, IsLastReached (items.map position) point index ∧
      items[index]? = some (latestAt position current items point) := by
  obtain ⟨place, found, low, beyond⟩ := latestAt_exists current point ascending
  cases place with
  | zero =>
      obtain ⟨item, member, reached⟩ := reached
      obtain ⟨index, itemFound⟩ := List.getElem?_of_mem member
      exact absurd reached (beyond (index + 1) item (Nat.succ_pos index) itemFound)
  | succ index =>
      rw [List.getElem?_cons_succ] at found
      refine ⟨index, ⟨⟨_, by rw [List.getElem?_map, found, Option.map_some], ?_⟩, ?_⟩, found⟩
      · exact low.resolve_left (Nat.succ_ne_zero index)
      · intro later position after positionFound
        rw [List.getElem?_map] at positionFound
        obtain ⟨item, itemFound, rfl⟩ := Option.map_eq_some_iff.mp positionFound
        exact beyond (later + 1) item (Nat.succ_lt_succ after) itemFound

/-- What a function shows at a point is its item at the last position that is reached. -/
theorem IsLastReached.latestAt {items : List β} {point : α} {index : Nat}
    (last : IsLastReached (items.map position) point index)
    (ascending : items.Pairwise fun left right => position left ≤ position right) (current : β) :
    items[index]? = some (latestAt position current items point) := by
  obtain ⟨_, positionFound, reached⟩ := last.reached
  rw [List.getElem?_map] at positionFound
  obtain ⟨item, found, rfl⟩ := Option.map_eq_some_iff.mp positionFound
  obtain ⟨place, own, shown⟩ := exists_isLastReached current ascending
    ⟨item, List.mem_of_getElem? found, reached⟩
  rw [last.unique own, shown]

end HostTimeline
