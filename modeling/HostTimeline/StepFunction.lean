import HostTimeline.Scalar

/-!
Resampling of a step function.  `carryForward` walks the items and the grid in
lockstep: at each grid point it takes up the items reached so far and repeats the
last of them there.
-/

namespace HostTimeline

variable {α β : Type} [Scalar α]

/-- One item per grid point: the last one taken up so far, moved to the point.
Items are taken up in order, as long as they do not lie beyond the point; once
taken up they are not visited again. -/
def carryForward (position : β → α) (moveTo : β → α → β) (current : β) (items : List β) :
    List α → List β
  | [] => []
  | point :: grid =>
      let reached (item : β) : Bool := decide (position item ≤ point)
      let latest := (items.takeWhile reached).getLast?.getD current
      moveTo latest point :: carryForward position moveTo latest (items.dropWhile reached) grid

@[simp]
theorem length_carryForward (position : β → α) (moveTo : β → α → β) (current : β)
    (items : List β) (grid : List α) :
    (carryForward position moveTo current items grid).length = grid.length := by
  induction grid generalizing current items with
  | nil => rfl
  | cons point grid ih => simp [carryForward, ih]

end HostTimeline
