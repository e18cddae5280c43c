import HostTimeline.Proofs.Alignment

/-!
Thinning of series that have no two points at the same x.  There a point is dropped only if it
repeats the value retained last, so the series shows the same at every x
(`Chart.beq_latestAt_thinSorted`).  Hence the chart of the thinned series shows at each x of its axis
what the chart of all points shows there (`Chart.isLossless_thin`).
-/

namespace HostTimeline

open OrderedScalar

variable {α β κ : Type} [Scalar α]

theorem latestAt_of_beyond {position : β → α} (current : β) {items : List β} {point : α}
    (beyond : ∀ item ∈ items, ¬ position item ≤ point) :
    latestAt position current items point = current := by
  cases items with
  | nil => rfl
  | cons item rest => exact if_neg (beyond item List.mem_cons_self)

theorem latestAt_congr [OrderedScalar α] {position : β → α} (current : β) (items : List β)
    {point other : α} (same : (point == other) = true) :
    latestAt position current items point = latestAt position current items other := by
  induction items generalizing current with
  | nil => rfl
  | cons item rest ih =>
      have reached_iff : position item ≤ point ↔ position item ≤ other :=
        le_congr (.inl rfl) (.inr same)
      simp only [latestAt, reached_iff, ih]

namespace Chart

/-- No two points are at the same x. -/
def IsFunction (points : List (Point α)) : Prop :=
  points.Pairwise fun left right => ¬ (left.x == right.x) = true

/-- What all series show at each x of a chart they show there in the other chart too. -/
structure IsShownIn (chart other : Chart κ α) : Prop where
  keys : chart.series.map Prod.fst = other.series.map Prod.fst
  shown : ∀ (place : Nat) (x : α), chart.axis[place]? = some x →
    ∃ (index : Nat) (own : α), other.axis[index]? = some own ∧ (x == own) = true ∧
      List.Forall₂ (fun line otherLine => ∃ point otherPoint,
        line.2[place]? = some point ∧ otherLine.2[index]? = some otherPoint ∧
          point.x = x ∧ otherPoint.x = own ∧ (point.y == otherPoint.y) = true)
        chart.series other.series

/-- Thinning the series loses nothing of what they show, and thinning them again drops nothing. -/
structure IsLossless (series : List (κ × List (Point α))) : Prop where
  shown : (alignThinned false series).IsShownIn (align series)
  settled : ∀ entry ∈ series, thin false (thin false entry.2) = thin false entry.2

theorem thin_false (points : List (Point α)) :
    thin false points = thinSorted (Scalar.sortOn Point.x points) := by
  simp [thin]

theorem thinAfter_sublist (kept : Point α) (points : List (Point α)) :
    (thinAfter kept points).Sublist points := by
  induction points generalizing kept with
  | nil => exact .slnil
  | cons point rest ih =>
      unfold thinAfter
      split
      · exact (ih kept).cons point
      · exact (ih point).cons_cons point

theorem thinSorted_sublist (points : List (Point α)) : (thinSorted points).Sublist points := by
  cases points with
  | nil => exact .slnil
  | cons point rest => exact (thinAfter_sublist point rest).cons_cons point

theorem thin_subset (points : List (Point α)) : thin false points ⊆ points := by
  intro point member
  rw [thin_false] at member
  exact mem_stableSort.mp ((thinSorted_sublist _).subset member)

theorem comparable_drawn_thin {series : List (κ × List (Point α))}
    (comparable : ∀ entry ∈ series, ∀ point ∈ entry.2, point.x ≤ point.x) :
    ∀ x ∈ (series.map fun entry => (entry.1, thin false entry.2)).flatMap
      fun entry => entry.2.map Point.x, x ≤ x := by
  refine comparable_drawn fun entry member point pointMember => ?_
  obtain ⟨own, ownMember, rfl⟩ := List.mem_map.mp member
  exact comparable own ownMember point (thin_subset own.2 pointMember)

theorem thinAfter_thinAfter (kept : Point α) (points : List (Point α)) :
    thinAfter kept (thinAfter kept points) = thinAfter kept points := by
  induction points generalizing kept with
  | nil => rfl
  | cons point rest ih =>
      by_cases repeated : (kept.x == point.x || kept.y == point.y) = true
      · have dropped : thinAfter kept (point :: rest) = thinAfter kept rest := if_pos repeated
        rw [dropped, ih]
      · have retained (points : List (Point α)) :
            thinAfter kept (point :: points) = point :: thinAfter point points := if_neg repeated
        rw [retained, retained, ih]

theorem thinSorted_thinSorted (points : List (Point α)) :
    thinSorted (thinSorted points) = thinSorted points := by
  cases points with
  | nil => rfl
  | cons point rest => exact congrArg (point :: ·) (thinAfter_thinAfter point rest)

variable [OrderedScalar α]

section Shown

variable {points : List (Point α)} (comparable : ∀ point ∈ points, point.y ≤ point.y)
include comparable

/-- A point that is dropped repeats the value of the one retained last. -/
theorem beq_latestAt_thinAfter {kept current : Point α}
    (increasing : (kept :: points).Pairwise fun left right => left.x < right.x)
    (same : (kept.y == current.y) = true) (x : α) :
    ((latestAt Point.x kept (thinAfter kept points) x).y ==
      (latestAt Point.x current points x).y) = true := by
  induction points generalizing kept current with
  | nil => exact same
  | cons point rest ih =>
      obtain ⟨below, increasingRest⟩ := List.pairwise_cons.mp increasing
      obtain ⟨here, later⟩ := List.forall_mem_cons.mp comparable
      have apart : (kept.x == point.x) = false :=
        Bool.eq_false_iff.mpr (not_beq_of_lt (below point List.mem_cons_self))
      by_cases repeated : (kept.y == point.y) = true
      · have dropped : thinAfter kept (point :: rest) = thinAfter kept rest :=
          if_pos (by rw [apart, repeated, Bool.false_or])
        rw [dropped, latestAt]
        split
        · exact ih later (List.pairwise_cons.mpr
            ⟨fun other member => below other (List.mem_cons_of_mem _ member),
              (List.pairwise_cons.mp increasingRest).2⟩) repeated
        next beyond =>
          have beyondRest : ∀ other ∈ thinAfter kept rest, ¬ other.x ≤ x := by
            intro other member reached
            have after := (List.pairwise_cons.mp increasingRest).1 other
              ((thinAfter_sublist kept rest).subset member)
            exact beyond (OrderedScalar.le_trans (OrderedScalar.le_of_lt after) reached)
          rw [latestAt_of_beyond kept beyondRest]
          exact same
      · have retained : thinAfter kept (point :: rest) = point :: thinAfter point rest :=
          if_neg (by rw [apart, Bool.false_or]; exact repeated)
        rw [retained, latestAt, latestAt]
        split
        · exact ih later increasingRest (beq_self here)
        · exact same

theorem beq_latestAt_thinSorted (increasing : points.Pairwise fun left right => left.x < right.x)
    {start : Point α} (startComparable : start.y ≤ start.y) (x : α) :
    ((latestAt Point.x start (thinSorted points) x).y ==
      (latestAt Point.x start points x).y) = true := by
  cases points with
  | nil => exact beq_self startComparable
  | cons point rest =>
      rw [thinSorted, latestAt, latestAt]
      split
      · exact beq_latestAt_thinAfter (List.forall_mem_cons.mp comparable).2 increasing
          (beq_self (comparable point List.mem_cons_self)) x
      · exact beq_self startComparable

end Shown

/-- On an ascending axis a resampled series is a look-up at each x. -/
theorem getElem?_resample {axis : List α} (ascending : axis.Pairwise (· < ·))
    (points : List (Point α)) {place : Nat} {x : α} (found : axis[place]? = some x) :
    (resample axis points)[place]? = some { latestAt Point.x { x := Scalar.zero, y := Scalar.zero }
      (Scalar.sortOn Point.x points) x with x } := by
  unfold resample
  rw [carryForward_eq_map _ _ _ _ (ascending.imp fun less => OrderedScalar.le_of_lt less),
    List.getElem?_map, found, Option.map_some]

section Series

variable {points : List (Point α)} (comparable : ∀ point ∈ points, point.x ≤ point.x)
  (isFunction : IsFunction points)
include comparable isFunction

theorem increasing_sortOn :
    (Scalar.sortOn Point.x points).Pairwise fun left right => left.x < right.x := by
  have apart : (Scalar.sortOn Point.x points).Pairwise
      fun left right => ¬ (left.x == right.x) = true :=
    ((perm_stableSort points).pairwise_iff fun differ same => differ (beq_symm same)).mpr isFunction
  exact ((pairwise_sortOn comparable).and apart).imp fun both =>
    (lt_or_beq_of_le both.1).resolve_right both.2

theorem sortOn_thin : Scalar.sortOn Point.x (thin false points) = thin false points := by
  rw [thin_false]
  exact sortOn_eq_self ((increasing_sortOn comparable isFunction).sublist (thinSorted_sublist _))

theorem thin_thin : thin false (thin false points) = thin false points := by
  rw [thin_false, sortOn_thin comparable isFunction, thin_false, thinSorted_thinSorted]

/-- Reading a thinned series at an x, and the whole series at an equal one. -/
theorem beq_latestAt_thin (valued : ∀ point ∈ points, point.y ≤ point.y) {x other : α}
    (same : (x == other) = true) {start : Point α} (startComparable : start.y ≤ start.y) :
    ((latestAt Point.x start (Scalar.sortOn Point.x (thin false points)) x).y ==
      (latestAt Point.x start (Scalar.sortOn Point.x points) other).y) = true := by
  rw [sortOn_thin comparable isFunction, thin_false, ← latestAt_congr _ _ same]
  exact beq_latestAt_thinSorted (fun point member => valued point (mem_stableSort.mp member))
    (increasing_sortOn comparable isFunction) startComparable x

end Series

section Lines

variable {series : List (κ × List (Point α))}
  (comparable : ∀ entry ∈ series, ∀ point ∈ entry.2, point.x ≤ point.x)
include comparable

/-- Every x that is left by thinning is at some place of the axis of all points. -/
theorem exists_place_of_thin {x : α}
    (member : x ∈ axisOf (series.map fun entry => (entry.1, thin false entry.2))) :
    ∃ (index : Nat) (own : α), (axisOf series)[index]? = some own ∧ (x == own) = true := by
  obtain ⟨thinned, thinnedMember, onAxis⟩ := exists_of_mem_axisOf member
  obtain ⟨entry, entryMember, rfl⟩ := List.mem_map.mp thinnedMember
  obtain ⟨own, ownMember, same⟩ := exists_mem_axisOf (comparable_drawn comparable) entryMember
    (List.map_subset Point.x (thin_subset entry.2) onAxis)
  obtain ⟨index, found⟩ := List.getElem?_of_mem ownMember
  exact ⟨index, own, found, beq_symm same⟩

theorem isShownIn_align (valued : ∀ entry ∈ series, ∀ point ∈ entry.2, point.y ≤ point.y)
    (isFunction : ∀ entry ∈ series, IsFunction entry.2) :
    (alignThinned false series).IsShownIn (align series) where
  keys := by simp only [alignThinned, align, List.map_map, Function.comp_def]
  shown place x found := by
    obtain ⟨index, own, ownFound, same⟩ :=
      exists_place_of_thin comparable (List.mem_of_getElem? found)
    refine ⟨index, own, ownFound, same, ?_⟩
    simp only [alignThinned, align, List.map_map]
    refine List.forall₂_map_left_iff.mpr (List.forall₂_map_right_iff.mpr
      (List.forall₂_same.mpr fun line member => ?_))
    exact ⟨_, _, getElem?_resample (pairwise_axisOf (comparable_drawn_thin comparable)) _ found,
      getElem?_resample (pairwise_axisOf (comparable_drawn comparable)) _ ownFound, rfl, rfl,
      beq_latestAt_thin (comparable line member) (isFunction line member) (valued line member)
        same zero_le_zero⟩

theorem isLossless_of_comparable
    (valued : ∀ entry ∈ series, ∀ point ∈ entry.2, point.y ≤ point.y)
    (isFunction : ∀ entry ∈ series, IsFunction entry.2) : IsLossless series where
  shown := isShownIn_align comparable valued isFunction
  settled entry member := thin_thin (comparable entry member) (isFunction entry member)

end Lines

theorem isLossless_thin {series : List (κ × List (Point Float))}
    (numbers : ∀ entry ∈ series, ∀ point ∈ entry.2, point.x.isNaN = false ∧ point.y.isNaN = false)
    (isFunction : ∀ entry ∈ series, IsFunction entry.2) : IsLossless series := by
  have comparable {x : Float} (number : x.isNaN = false) : x ≤ x :=
    Binary64.le_iff.mpr ⟨number, number, Int.le_refl _⟩
  exact isLossless_of_comparable
    (fun entry member point within => comparable (numbers entry member point within).1)
    (fun entry member point within => comparable (numbers entry member point within).2) isFunction

/-- Series with repeated values, one of which is zero with either sign. -/
def repetitive : List (String × List (Point Float)) := [
  ("used", [{ x := 3.0, y := 1.0 }, { x := 0.0, y := 2.0 }, { x := 1.0, y := 2.0 },
    { x := 2.0, y := 1.0 }]),
  ("idle", [{ x := 1.0, y := 0.0 }, { x := 2.0, y := -0.0 }, { x := 4.0, y := 5.0 }]),
  ("off", [])]

theorem isLossless_repetitive : (alignThinned false repetitive).axis = [0.0, 1.0, 2.0, 4.0] ∧
    (align repetitive).axis = [0.0, 1.0, 2.0, 3.0, 4.0] ∧ IsLossless repetitive :=
  ⟨by decide +kernel, by decide +kernel, isLossless_thin (by decide +kernel)
    (by simp only [IsFunction]; decide +kernel)⟩

end Chart

end HostTimeline
