import HostTimeline.Proofs.StepFunction

/-!
Resampling on a grid that every item lies on.  The walk repeats items and leaves none out
(`carryForward_fills`), so a fold that does not notice repetitions comes to the same over the
items as over what the grid shows (`Fills.view_foldl`).
-/

namespace HostTimeline

variable {α β σ τ : Type}

/-- `filled` goes through `items`, and repeats the item it is at any number of times before it
reaches the next one.  It is at `current` first. -/
inductive Fills (moveTo : β → α → β) : β → List β → List β → Prop where
  | done (current : β) : Fills moveTo current [] []
  | again {current next : β} {items filled : List β} (point : α)
      (later : Fills moveTo current (next :: items) filled) :
      Fills moveTo current (next :: items) (moveTo current point :: filled)
  | reached (current : β) {next : β} {items filled : List β}
      (later : Fills moveTo next items filled) :
      Fills moveTo current (next :: items) (next :: filled)

/-- A fold whose view stays the same while the item it is at is repeated. -/
structure IgnoresRefills (moveTo : β → α → β) (advance : σ → β → σ) (view : σ → τ)
    (isAt : σ → β → Prop) (regular : β → Prop) : Prop where
  moves : ∀ {left right} next, view left = view right →
    view (advance left next) = view (advance right next)
  enters : ∀ state {next}, regular next → isAt (advance state next) next
  stays : ∀ {state item} point, isAt state item →
    view (advance state (moveTo item point)) = view state ∧
      isAt (advance state (moveTo item point)) item

namespace Fills

variable {moveTo : β → α → β} {current : β} {items filled : List β}

theorem view_foldl {advance : σ → β → σ} {view : σ → τ} {isAt : σ → β → Prop}
    {regular : β → Prop} (fills : Fills moveTo current items filled)
    (ignores : IgnoresRefills moveTo advance view isAt regular)
    (known : ∀ item ∈ items, regular item) {left right : σ} (same : view left = view right)
    (here : isAt left current) :
    view (filled.foldl advance left) = view (items.foldl advance right) := by
  induction fills generalizing left right with
  | done current => exact same
  | again point later ih =>
      obtain ⟨unchanged, stillHere⟩ := ignores.stays point here
      exact ih known (unchanged.trans same) stillHere
  | reached current later ih =>
      exact ih (fun item member => known item (List.mem_cons_of_mem _ member))
        (ignores.moves _ same) (ignores.enters left (known _ List.mem_cons_self))

theorem getLast?_eq (fills : Fills moveTo current items filled) :
    filled.getLast? = items.getLast? := by
  induction fills with
  | done current => rfl
  | again point later ih => rw [List.getLast?_cons, ih, List.getLast?_cons, Option.getD_some]
  | reached current later ih => rw [List.getLast?_cons, List.getLast?_cons, ih]

end Fills

variable [Scalar α] [OrderedScalar α]

open OrderedScalar

theorem getLast?_eq_of_cons {first : α} {positions points : List α}
    (above : ∀ point ∈ points, first < point) (onGrid : positions.Sublist points)
    (ends : (first :: positions).getLast? = (first :: points).getLast?) :
    positions.getLast? = points.getLast? := by
  rw [List.getLast?_cons, List.getLast?_cons, Option.some.injEq] at ends
  cases last : points.getLast? with
  | none =>
      rw [List.getLast?_eq_none_iff.mp last, List.sublist_nil] at onGrid
      rw [onGrid, List.getLast?_nil]
  | some final =>
      cases inner : positions.getLast? with
      | none =>
          rw [last, inner, Option.getD_none, Option.getD_some] at ends
          exact absurd (ends ▸ above final (List.mem_of_getLast? last)) (lt_irrefl _)
      | some other =>
          rw [last, inner, Option.getD_some, Option.getD_some] at ends
          rw [ends]

/-- If every item lies on the grid, and the last one at its end, the walk over the grid goes
through all of them. -/
theorem carryForward_fills {position : β → α} {moveTo : β → α → β} {items : List β}
    {grid : List α} (onGrid : (items.map position).Sublist grid)
    (ends : (items.map position).getLast? = grid.getLast?)
    (increasing : grid.Pairwise (· < ·)) (comparable : ∀ point ∈ grid, point ≤ point)
    (still : ∀ item ∈ items, moveTo item (position item) = item) (current : β) :
    Fills moveTo current items (carryForward position moveTo current items grid) := by
  induction grid generalizing current items with
  | nil =>
      rw [List.map_eq_nil_iff.mp (List.sublist_nil.mp onGrid)]
      exact .done current
  | cons point grid ih =>
      obtain ⟨above, increasingRest⟩ := List.pairwise_cons.mp increasing
      have comparableRest := fun other member => comparable other (List.mem_cons_of_mem point member)
      cases items with
      | nil => simp [List.getLast?_cons] at ends
      | cons item rest =>
          rw [List.map_cons] at onGrid
          by_cases here : position item = point
          · -- The item is taken up here, and none of the others is.
            subst here
            have restOnGrid := List.cons_sublist_cons.mp onGrid
            have beyond : ∀ other ∈ rest, ¬ position other ≤ position item := fun other member =>
              not_le_of_lt (above _ (restOnGrid.subset (List.mem_map_of_mem member)))
            have restEnds := getLast?_eq_of_cons above restOnGrid ends
            rw [carryForward_of_reached current (comparable _ List.mem_cons_self) beyond,
              still item List.mem_cons_self]
            exact .reached current (ih restOnGrid restEnds increasingRest comparableRest
              (fun other member => still other (List.mem_cons_of_mem item member)) item)
          · have later : ((item :: rest).map position).Sublist grid := by
              rcases List.sublist_cons_iff.mp onGrid with below | ⟨others, same, _⟩
              · exact below
              · exact absurd (List.cons.inj same).1 here
            have beyond : ∀ other ∈ item :: rest, ¬ position other ≤ point := fun other member =>
              not_le_of_lt (above _ (later.subset (List.mem_map_of_mem member)))
            have laterEnds : ((item :: rest).map position).getLast? = grid.getLast? := by
              rw [ends]
              cases grid with
              | nil => simp at later
              | cons next grid => simp [List.getLast?_cons]
            rw [carryForward_of_beyond current beyond]
            exact .again point (ih later laterEnds increasingRest comparableRest still current)

end HostTimeline
