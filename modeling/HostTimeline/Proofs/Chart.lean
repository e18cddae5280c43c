import HostTimeline.Chart
import HostTimeline.Proofs.Number.Distinct
import HostTimeline.Proofs.StepFunction
import Mathlib

/-!
Aligning series that have their points at the same positions.  They stay as they are exactly
if no two of the positions are equal (`align_series`, `length_align_iff`).  Also where some are
equal, all series show at one x what they had at one position (`IsReadTogether`).
-/

namespace HostTimeline

variable {α β κ : Type}

namespace Chart

/-- What the series of a chart show at a place of its axis, in their order. -/
def valuesAt (chart : Chart κ α) (place : Nat) : List α :=
  chart.series.filterMap fun entry => (entry.2[place]?).map Point.y

theorem valuesAt_eq {chart : Chart κ α} {items : List β} {key : β → κ}
    {points : β → List (Point α)}
    (drawn : chart.series = items.map fun item => (key item, points item))
    {place : Nat} {value : β → α}
    (shown : ∀ item ∈ items, ((points item)[place]?).map Point.y = some (value item)) :
    chart.valuesAt place = items.map value := by
  rw [valuesAt, drawn, List.filterMap_map]
  exact List.filterMap_eq_map_iff_forall_eq_some.mpr shown

variable [Scalar α] {series : List (κ × List (Point α))} {axis : List α}

theorem exists_of_mem_axisOf {x : α} (member : x ∈ axisOf series) :
    ∃ entry ∈ series, x ∈ entry.2.map Point.x :=
  List.mem_flatMap.mp (mem_stableSort.mp ((eraseReps_sublist _).subset member))

theorem mem_axisOf (positions : ∀ entry ∈ series, entry.2.map Point.x = axis) {x : α}
    (member : x ∈ axisOf series) : x ∈ axis := by
  obtain ⟨entry, entryMember, found⟩ := exists_of_mem_axisOf member
  exact positions entry entryMember ▸ found

theorem comparable_points (positions : ∀ entry ∈ series, entry.2.map Point.x = axis)
    (comparable : ∀ x ∈ axis, x ≤ x) :
    ∀ x ∈ series.flatMap fun entry => entry.2.map Point.x, x ≤ x := by
  intro x member
  obtain ⟨entry, entryMember, found⟩ := List.mem_flatMap.mp member
  exact comparable x (positions entry entryMember ▸ found)

theorem length_of_mem_align {entry : κ × List (Point α)} (member : entry ∈ (align series).series) :
    entry.2.length = (axisOf series).length := by
  obtain ⟨original, _, rfl⟩ := List.mem_map.mp member
  exact length_carryForward _ _ _ _ _

end Chart

variable [Scalar α] [OrderedScalar α]

open OrderedScalar

/-- On its own positions a step function is repeated item by item. -/
theorem carryForward_self {position : β → α} {moveTo : β → α → β} {items : List β}
    (increasing : items.Pairwise fun left right => position left < position right)
    (comparable : ∀ item ∈ items, position item ≤ position item)
    (still : ∀ item ∈ items, moveTo item (position item) = item) (current : β) :
    carryForward position moveTo current items (items.map position) = items := by
  induction items generalizing current with
  | nil => rfl
  | cons item rest ih =>
      obtain ⟨above, increasingRest⟩ := List.pairwise_cons.mp increasing
      have reached := comparable item List.mem_cons_self
      have beyond : ∀ other ∈ rest, ¬ position other ≤ position item :=
        fun other member => not_le_of_lt (above other member)
      rw [List.map_cons, carryForward_of_reached current reached beyond,
        still item List.mem_cons_self, ih increasingRest
        (fun other member => comparable other (List.mem_cons_of_mem _ member))
        (fun other member => still other (List.mem_cons_of_mem _ member))]

namespace Chart

variable {series : List (κ × List (Point α))} {axis : List α}

section Comparable

variable (comparable : ∀ x ∈ series.flatMap fun entry => entry.2.map Point.x, x ≤ x)

include comparable

theorem pairwise_axisOf : (axisOf series).Pairwise (· < ·) :=
  pairwise_lt_eraseReps (pairwise_sort comparable)

/-- Every x of a series is on the axis, up to equality by value. -/
theorem exists_mem_axisOf {entry : κ × List (Point α)} (member : entry ∈ series) {x : α}
    (drawn : x ∈ entry.2.map Point.x) : ∃ kept ∈ axisOf series, (kept == x) = true :=
  exists_beq_eraseReps (fun value sorted => comparable value (mem_stableSort.mp sorted))
    (mem_stableSort.mpr (List.mem_flatMap.mpr ⟨entry, member, drawn⟩))

end Comparable

theorem axisOf_eq (positions : ∀ entry ∈ series, entry.2.map Point.x = axis) (some : series ≠ [])
    (increasing : axis.Pairwise (· < ·)) (comparable : ∀ x ∈ axis, x ≤ x) :
    axisOf series = axis := by
  have drawnComparable := comparable_points positions comparable
  have ascends := pairwise_axisOf drawnComparable
  have members (x : α) : x ∈ axisOf series ↔ x ∈ axis := by
    refine ⟨mem_axisOf positions, fun member => ?_⟩
    obtain ⟨entry, entryMember⟩ := List.exists_mem_of_ne_nil series some
    obtain ⟨kept, found, same⟩ := exists_mem_axisOf drawnComparable entryMember
      ((positions entry entryMember).symm ▸ member)
    exact eq_of_beq_of_mem increasing (mem_axisOf positions found) member same ▸ found
  refine List.Perm.eq_of_pairwise (fun left right _ _ less back => ?_) ascends increasing
    ((List.perm_ext_iff_of_nodup (nodup_of_increasing ascends)
      (nodup_of_increasing increasing)).mpr members)
  exact absurd (OrderedScalar.lt_trans less back) (OrderedScalar.lt_irrefl left)

theorem resample_eq {points : List (Point α)}
    (increasing : (points.map Point.x).Pairwise (· < ·))
    (comparable : ∀ x ∈ points.map Point.x, x ≤ x) :
    resample (points.map Point.x) points = points := by
  have ascends : points.Pairwise fun left right => left.x < right.x :=
    List.pairwise_map.mp increasing
  unfold resample
  rw [sortOn_eq_self ascends]
  exact carryForward_self ascends
    (fun point member => comparable point.x (List.mem_map_of_mem member)) (fun _ _ => rfl) _

/-- Series with their points at the same ascending positions are aligned already. -/
theorem align_series (positions : ∀ entry ∈ series, entry.2.map Point.x = axis)
    (increasing : axis.Pairwise (· < ·)) (comparable : ∀ x ∈ axis, x ≤ x) :
    (align series).series = series := by
  change series.map (fun entry => (entry.1, resample (axisOf series) entry.2)) = series
  refine (List.map_congr_left fun entry member => ?_).trans (List.map_id series)
  have own := positions entry member
  rw [axisOf_eq positions (List.ne_nil_of_mem member) increasing comparable, ← own,
    resample_eq (own ▸ increasing) (own ▸ comparable)]
  rfl

/-- If the axis is as long as the series were, no two of their positions are equal. -/
theorem not_beq_of_length_axisOf (positions : ∀ entry ∈ series, entry.2.map Point.x = axis)
    (comparable : ∀ x ∈ axis, x ≤ x) (length : axis.length ≤ (axisOf series).length) :
    axis.Pairwise fun left right => ¬ (left == right) = true := by
  have ascends := pairwise_axisOf (comparable_points positions comparable)
  have perm : (axisOf series).Perm axis :=
    (List.subperm_of_subset (nodup_of_increasing ascends) fun _ => mem_axisOf positions).perm_of_length_le length
  refine (perm.pairwise_iff fun differ same => differ (beq_symm same)).mp ?_
  exact ascends.imp fun less => not_beq_of_lt less

/-- At each place of the axis, series with their points at the same positions all show what they
had at one of these: the last one that is not beyond x, or the last one of all if x cannot be
compared. -/
def IsReadTogether (positions axis : List α) : Prop :=
  ∀ (place : Nat) (x : α), axis[place]? = some x → ∃ index < positions.length,
    (x ≤ x → IsLastReached positions x index) ∧ (¬ x ≤ x → index + 1 = positions.length) ∧
      ∀ points : List (Point α), points.map Point.x = positions → ∃ point,
        points[index]? = some point ∧ (resample axis points)[place]? = some { point with x }

theorem isReadTogether_of_ascending {positions : List α}
    (sorted : positions.Pairwise fun left right => Scalar.precedes left right)
    (ascending : positions.Pairwise (· ≤ ·)) (axisAscending : axis.Pairwise (· ≤ ·))
    (own : ∀ x ∈ axis, x ∈ positions ∧ x ≤ x) : IsReadTogether positions axis := by
  intro place x found
  obtain ⟨member, comparable⟩ := own x (List.mem_of_getElem? found)
  have ascends : positions.Pairwise fun left right => id left ≤ id right := ascending
  obtain ⟨index, last, shown⟩ := exists_isLastReached x ascends ⟨x, member, comparable⟩
  rw [List.map_id] at last
  obtain ⟨inside, _⟩ := List.getElem?_eq_some_iff.mp shown
  refine ⟨index, inside, fun _ => last, fun undefined => absurd comparable undefined, ?_⟩
  rintro points rfl
  have kept : Scalar.sortOn Point.x points = points :=
    stableSort_eq_self (List.pairwise_map.mp sorted)
  refine ⟨_, last.latestAt (List.pairwise_map.mp ascending)
    { x := Scalar.zero, y := Scalar.zero }, ?_⟩
  unfold resample
  rw [kept, carryForward_eq_map _ _ _ _ axisAscending, List.getElem?_map, found]
  rfl

section Undefined

/-! Two positions, the first of which cannot be compared and is sorted behind the other. -/

variable {first last : α} (undefined : ∀ x, ¬ first ≤ x)
  (behind : ¬ Scalar.precedes first last = true) (comparable : last ≤ last)
  (positions : ∀ entry ∈ series, entry.2.map Point.x = [first, last])

include undefined behind comparable positions

/-- The axis begins at the position that can be compared. -/
theorem axisOf_of_undefined {entry : κ × List (Point α)} (member : entry ∈ series) :
    ∃ rest, axisOf series = last :: rest := by
  have drawn : last ∈ Scalar.sort (series.flatMap fun entry => entry.2.map Point.x) :=
    mem_stableSort.mpr (List.mem_flatMap.mpr ⟨entry, member, by simp [positions entry member]⟩)
  have ordered : (Scalar.sort (series.flatMap fun entry => entry.2.map Point.x)).Pairwise
      fun left right => Scalar.precedes left right :=
    pairwise_stableSort precedes_total (fun _ _ _ => precedes_trans) _
  have either : ∀ x ∈ Scalar.sort (series.flatMap fun entry => entry.2.map Point.x),
      x = first ∨ x = last := by
    intro x sorted
    obtain ⟨entry, entryMember, own⟩ := List.mem_flatMap.mp (mem_stableSort.mp sorted)
    simpa [positions entry entryMember] using own
  unfold axisOf
  cases sorted : Scalar.sort (series.flatMap fun entry => entry.2.map Point.x) with
  | nil => simp [sorted] at drawn
  | cons head tail =>
      rw [sorted] at drawn ordered either
      rcases either head List.mem_cons_self with rfl | rfl
      · rcases List.mem_cons.mp drawn with same | later
        · exact absurd comparable (same ▸ undefined last)
        · exact absurd ((List.pairwise_cons.mp ordered).1 last later) behind
      · exact eraseReps_cons_exists head tail

/-- The position that cannot be compared is never reached, so all series show the other one. -/
theorem isReadTogether_of_undefined : IsReadTogether [first, last] (axisOf series) := by
  intro place x found
  have member := List.mem_of_getElem? found
  refine ⟨1, Nat.one_lt_two, fun reached => ⟨⟨last, rfl, ?_⟩, ?_⟩, fun _ => rfl, ?_⟩
  · have either : x = first ∨ x = last := by
      simpa using mem_axisOf positions member
    rcases either with rfl | rfl
    · exact absurd reached (undefined x)
    · exact reached
  · intro later position after found
    have none : [first, last][later]? = none := List.getElem?_eq_none after
    rw [none] at found
    cases found
  · intro points own
    obtain ⟨entry, entryMember, _⟩ :=
      List.mem_flatMap.mp (mem_stableSort.mp ((eraseReps_sublist _).subset member))
    obtain ⟨rest, axis⟩ := axisOf_of_undefined undefined behind comparable positions entryMember
    obtain ⟨head, next, rfl⟩ : ∃ head next, points = [head, next] :=
      List.length_eq_two.mp ((List.length_map Point.x).symm.trans (congrArg List.length own))
    obtain ⟨rfl, rfl⟩ : head.x = first ∧ next.x = last := by simpa using own
    have swapped : Scalar.sortOn Point.x [head, next] = [next, head] := by
      simp [Scalar.sortOn, stableSort, sortByHalves, mergeInOrder, mergeFrom, behind]
    have shown : resample (next.x :: rest) [head, next] =
        (next.x :: rest).map fun x => { next with x } := by
      unfold resample
      rw [swapped, carryForward_of_reached _ comparable (by simp [undefined]),
        carryForward_of_unreached _ (by simp [undefined]), List.map_cons]
    refine ⟨next, rfl, ?_⟩
    rw [axis] at found ⊢
    rw [shown, List.getElem?_map, found]
    rfl

end Undefined

end Chart

end HostTimeline
