import HostTimeline.Proofs.Chart
import HostTimeline.Proofs.Number.Finite

/-!
Aligning series of any points.  The axis of the chart ascends and has every x once, each series
shows at each x of the axis its latest point, and aligning the chart again changes nothing
(`Chart.isAlignment_align`).
-/

namespace HostTimeline

section Sorting

variable {α : Type} {before : α → α → Bool}

/-- The item that a stable sort puts last: the items given ahead of it may not come after it, and
those given behind it have to come before it. -/
theorem split_of_getLast?_stableSort
    (total : ∀ left right, (before left right || before right left) = true)
    (trans : ∀ left middle right, before left middle = true → before middle right = true →
      before left right = true)
    {items : List α} {last : α} (final : (stableSort before items).getLast? = some last) :
    ∃ ahead behind, items = ahead ++ last :: behind ∧ (∀ item ∈ ahead, before item last = true) ∧
      ∀ item ∈ behind, ¬ before last item = true := by
  rw [stableSort_eq_mergeSort] at final
  induction items with
  | nil => simp at final
  | cons first rest ih =>
      obtain ⟨low, high, placed, others, below⟩ := List.mergeSort_cons trans total first rest
      have ordered := List.pairwise_mergeSort trans total (first :: rest)
      rw [placed] at final ordered
      rcases List.eq_nil_or_concat high with rfl | ⟨inner, top, rfl⟩
      · -- The new item comes last: all others come strictly before it.
        obtain rfl : first = last := by simpa using final
        refine ⟨[], rest, rfl, by simp, fun item member => ?_⟩
        have sorted : item ∈ low := by
          have found := (List.mergeSort_perm rest before).mem_iff.mpr member
          rwa [others, List.append_nil] at found
        simpa using below item sorted
      · -- The last of the others stays last.
        rw [List.concat_eq_append] at final others ordered
        obtain rfl : top = last := by
          rw [← List.cons_append, ← List.append_assoc, List.getLast?_concat] at final
          exact Option.some.inj final
        obtain ⟨ahead, behind, split, aheadFirst, behindFirst⟩ := ih (by
          rw [others, ← List.append_assoc, List.getLast?_concat])
        refine ⟨first :: ahead, behind, by rw [split, List.cons_append], ?_, behindFirst⟩
        intro item member
        rcases List.mem_cons.mp member with rfl | later
        · exact List.rel_of_pairwise_cons (List.pairwise_append.mp ordered).2.1 (by simp)
        · exact aheadFirst item later

end Sorting

variable {α β κ : Type} [Scalar α]

namespace Chart

/-- The latest of some points at an x.  Of the points at or before x it is the last one in
ascending order, and of several that come last in this order the one that was given last. -/
def IsLatest (points : List (Point α)) (x : α) (latest : Point α) : Prop :=
  ∃ ahead behind, points = ahead ++ latest :: behind ∧ latest.x ≤ x ∧
    (∀ point ∈ ahead, point.x ≤ x → Scalar.precedes point.x latest.x = true) ∧
    ∀ point ∈ behind, point.x ≤ x → ¬ Scalar.precedes latest.x point.x = true

/-- What a series shows at an x: its latest point, or zero ahead of all its points. -/
def Shows (points : List (Point α)) (x y : α) : Prop :=
  (∃ latest, IsLatest points x latest ∧ y = latest.y) ∨
    ((∀ point ∈ points, ¬ point.x ≤ x) ∧ y = Scalar.zero)

/-- The chart has every x of the series once, ascending, and shows each series at each of them. -/
structure IsAlignment (series : List (κ × List (Point α))) (chart : Chart κ α) : Prop where
  keys : chart.series.map Prod.fst = series.map Prod.fst
  ascending : chart.axis.Pairwise (· < ·)
  drawn : ∀ x ∈ chart.axis, ∃ entry ∈ series, ∃ point ∈ entry.2, point.x = x
  placed : ∀ entry ∈ series, ∀ point ∈ entry.2, ∃ x ∈ chart.axis, (x == point.x) = true
  shown : List.Forall₂ (fun entry line =>
    List.Forall₂ (fun x point => point.x = x ∧ Shows entry.2 x point.y) chart.axis line.2)
      series chart.series
  settled : align chart.series = chart

theorem map_resample (axis : List α) (points : List (Point α)) :
    (resample axis points).map Point.x = axis :=
  map_carryForward (fun _ _ => rfl) _ _ _

theorem comparable_drawn {series : List (κ × List (Point α))}
    (comparable : ∀ entry ∈ series, ∀ point ∈ entry.2, point.x ≤ point.x) :
    ∀ x ∈ series.flatMap fun entry => entry.2.map Point.x, x ≤ x := by
  intro x member
  obtain ⟨entry, entryMember, found⟩ := List.mem_flatMap.mp member
  obtain ⟨point, pointMember, rfl⟩ := List.mem_map.mp found
  exact comparable entry entryMember point pointMember

end Chart

variable [OrderedScalar α]

open OrderedScalar

theorem takeWhile_reached {position : β → α} {items : List β} (point : α)
    (ascending : items.Pairwise fun left right => position left ≤ position right) :
    items.takeWhile (fun item => decide (position item ≤ point)) =
      items.filter fun item => decide (position item ≤ point) := by
  induction items with
  | nil => rfl
  | cons item rest ih =>
      obtain ⟨below, ascendingRest⟩ := List.pairwise_cons.mp ascending
      by_cases reached : position item ≤ point
      · simp only [List.takeWhile_cons, List.filter_cons, reached, decide_true, if_true,
          ih ascendingRest]
      · have beyond : ∀ other ∈ rest, ¬ position other ≤ point :=
          fun other member otherReached => reached (OrderedScalar.le_trans (below other member) otherReached)
        simp only [List.takeWhile_cons, List.filter_cons, reached, decide_false, Bool.false_eq_true,
          if_false]
        exact (List.filter_eq_nil_iff.mpr (by simpa using beyond)).symm

namespace Chart

variable {series : List (κ × List (Point α))}

theorem isLatest_of_getLast? {points : List (Point α)} {x : α} {latest : Point α}
    (final : ((Scalar.sortOn Point.x points).filter fun point => decide (point.x ≤ x)).getLast? =
      some latest) : IsLatest points x latest := by
  rw [filter_sortOn] at final
  obtain ⟨ahead, behind, split, aheadFirst, behindFirst⟩ :=
    split_of_getLast?_stableSort
      (fun (left right : Point α) => precedes_total left.x right.x)
      (fun _ _ _ => precedes_trans) final
  obtain ⟨front, back, rfl, rfl, others⟩ := List.filter_eq_append_iff.mp split
  obtain ⟨passed, rest, rfl, unreached, reached, rfl⟩ := List.filter_eq_cons_iff.mp others
  refine ⟨front ++ passed, rest, by simp, of_decide_eq_true reached, ?_, ?_⟩
  · intro point member pointReached
    rcases List.mem_append.mp member with early | late
    · exact aheadFirst point (List.mem_filter.mpr ⟨early, decide_eq_true pointReached⟩)
    · exact absurd (decide_eq_true pointReached) (unreached point late)
  · intro point member pointReached
    exact behindFirst point (List.mem_filter.mpr ⟨member, decide_eq_true pointReached⟩)

/-- A resampled series shows its latest point at each x of an ascending axis. -/
theorem forall₂_resample {axis : List α} (ascending : axis.Pairwise (· < ·))
    {points : List (Point α)} (comparable : ∀ point ∈ points, point.x ≤ point.x) :
    List.Forall₂ (fun x point => point.x = x ∧ Shows points x point.y) axis
      (resample axis points) := by
  unfold resample
  rw [carryForward_eq_map _ _ _ _ (ascending.imp fun less => OrderedScalar.le_of_lt less),
    List.forall₂_map_right_iff, List.forall₂_same]
  intro x _
  refine ⟨rfl, ?_⟩
  rw [← getLast?_takeWhile_eq_latestAt, takeWhile_reached x (pairwise_sortOn comparable)]
  cases final : ((Scalar.sortOn Point.x points).filter fun point =>
      decide (point.x ≤ x)).getLast? with
  | some latest => exact .inl ⟨latest, isLatest_of_getLast? final, rfl⟩
  | none =>
      refine .inr ⟨fun point member reached => ?_, rfl⟩
      have none := List.filter_eq_nil_iff.mp (List.getLast?_eq_none_iff.mp final)
      exact none point (mem_stableSort.mpr member) (decide_eq_true reached)

/-- An aligned chart is aligned already. -/
theorem align_align (comparable : ∀ x ∈ series.flatMap fun entry => entry.2.map Point.x, x ≤ x) :
    align (align series).series = align series := by
  have positions : ∀ entry ∈ (align series).series, entry.2.map Point.x = axisOf series := by
    intro entry member
    obtain ⟨own, _, rfl⟩ := List.mem_map.mp member
    exact map_resample _ _
  have increasing := pairwise_axisOf comparable
  have axisComparable : ∀ x ∈ axisOf series, x ≤ x :=
    fun x member => comparable x (List.mem_flatMap.mpr (exists_of_mem_axisOf member))
  have kept := align_series positions increasing axisComparable
  cases series with
  | nil => rfl
  | cons first rest =>
      have axis : axisOf (align (first :: rest)).series = axisOf (first :: rest) :=
        axisOf_eq positions (List.cons_ne_nil _ _) increasing axisComparable
      change Chart.mk (axisOf (align (first :: rest)).series)
        (align (align (first :: rest)).series).series = _
      rw [axis, kept]
      rfl

theorem isAlignment_align {series : List (κ × List (Point Float))}
    (numbers : ∀ entry ∈ series, ∀ point ∈ entry.2, point.x.isNaN = false) :
    (align series).IsAlignment series := by
  have comparable : ∀ entry ∈ series, ∀ point ∈ entry.2, point.x ≤ point.x := by
    intro entry member point pointMember
    have number := numbers entry member point pointMember
    exact Binary64.le_iff.mpr ⟨number, number, Int.le_refl _⟩
  have drawnComparable := comparable_drawn comparable
  have increasing := pairwise_axisOf drawnComparable
  constructor
  · exact List.map_map
  · exact increasing
  · intro x member
    obtain ⟨entry, entryMember, drawn⟩ := exists_of_mem_axisOf member
    exact ⟨entry, entryMember, List.mem_map.mp drawn⟩
  · intro entry member point pointMember
    exact exists_mem_axisOf drawnComparable member (List.mem_map_of_mem pointMember)
  · refine List.forall₂_map_right_iff.mpr (List.forall₂_same.mpr fun entry member => ?_)
    exact forall₂_resample increasing (comparable entry member)
  · exact align_align drawnComparable

/-- Series out of order, with repeated positions, both zeros and both infinities. -/
def tangled : List (String × List (Point Float)) := [
  ("used", [{ x := 3.0, y := 1.0 }, { x := 0.0, y := 2.0 }, { x := -0.0, y := 3.0 },
    { x := 3.0, y := 4.0 }]),
  ("idle", [{ x := 1.0 / 0.0, y := 5.0 }, { x := -1.0 / 0.0, y := 6.0 }]),
  ("off", [])]

theorem isAlignment_tangled : (align tangled).axis = [-1.0 / 0.0, -0.0, 3.0, 1.0 / 0.0] ∧
    (align tangled).series.map (fun entry => entry.2.map Point.y) =
      [[0.0, 2.0, 4.0, 4.0], [6.0, 6.0, 6.0, 5.0], [0.0, 0.0, 0.0, 0.0]] ∧
    (align tangled).IsAlignment tangled :=
  ⟨by decide +kernel, by decide +kernel, isAlignment_align (by decide +kernel)⟩

end Chart

end HostTimeline
