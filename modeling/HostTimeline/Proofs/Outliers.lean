import HostTimeline.Proofs.Clipping
import HostTimeline.Proofs.Extent

/-!
Outliers on the grid of a window that leaves both ends open.  The grid begins and ends where the
window does, at the first and the last of all observed times.  These take the places of the first
and the last time that the rejection of outliers leaves, so an outlier at either end is shown in
the place of a time that was kept (`TimeGrid.replacesEnds_build`).  The grid is free of outliers
and shows all other times only if there are no outliers at all.
-/

namespace HostTimeline

open OrderedScalar

variable {α : Type} [Scalar α]

/-- The observed times, ascending, each value once. -/
def TimeGrid.onceEach (times : List α) : List α :=
  (Scalar.sort times).eraseReps

namespace TimeGrid

/-- Whether a time is a point of the grid, by value. -/
def Shows (grid : TimeGrid α) (time : α) : Prop :=
  ∃ point ∈ grid.points, (point == time) = true

/-- No outlier is a point of the grid, and every other observed time is. -/
structure LeavesOutOutliers (grid : TimeGrid α) (times : List α) : Prop where
  rejected : ∀ time ∈ onceEach times, time ∉ withoutOutliers (onceEach times) → ¬ grid.Shows time
  kept : ∀ time ∈ withoutOutliers (onceEach times), grid.Shows time

/-- The first and the last observed time stand where the first and the last time stood that are
no outliers. -/
structure ReplacesEnds (grid : TimeGrid α) (times : List α) : Prop where
  rejected : ∀ time ∈ onceEach times, time ∉ withoutOutliers (onceEach times) →
    (grid.Shows time ↔ (onceEach times).head? = some time ∨ (onceEach times).getLast? = some time)
  kept : ∀ time ∈ withoutOutliers (onceEach times),
    (grid.Shows time ↔
      ((withoutOutliers (onceEach times)).head? ≠ some time ∧
        (withoutOutliers (onceEach times)).getLast? ≠ some time) ∨
      (onceEach times).head? = some time ∨ (onceEach times).getLast? = some time)
  leavesOut : grid.LeavesOutOutliers times ↔ withoutOutliers (onceEach times) = onceEach times

end TimeGrid

/-- Without the first and the last of distinct items, all others remain. -/
theorem mem_tail_dropLast {β : Type} {items : List β} (distinct : items.Nodup) (item : β) :
    item ∈ items.tail.dropLast ↔
      item ∈ items ∧ items.head? ≠ some item ∧ items.getLast? ≠ some item := by
  cases items with
  | nil => simp
  | cons first rest =>
      obtain ⟨fresh, distinctRest⟩ := List.nodup_cons.mp distinct
      rcases rest.eq_nil_or_concat with rfl | ⟨middle, last, rfl⟩
      · simp only [List.tail_cons, List.dropLast_nil, List.not_mem_nil, List.mem_singleton,
          List.head?_cons, ne_eq, Option.some.injEq, false_iff, not_and, not_not]
        intro same other
        exact absurd same.symm other
      · rw [List.concat_eq_append] at fresh distinctRest ⊢
        have outside := (List.nodup_append.mp distinctRest).2.2
        have last? : (first :: (middle ++ [last])).getLast? = some last := by
          simp [List.getLast?_cons]
        rw [List.tail_cons, List.dropLast_concat, List.head?_cons, last?]
        constructor
        · intro inner
          refine ⟨by simp [inner], ?_, ?_⟩
          · rintro ⟨⟩
            exact fresh (List.mem_append_left _ inner)
          · rintro ⟨⟩
            exact outside item inner item (by simp) rfl
        · rintro ⟨member, notFirst, notLast⟩
          simp only [List.mem_cons, List.mem_append, List.not_mem_nil, or_false] at member
          rcases member with rfl | inner | rfl
          · exact absurd rfl notFirst
          · exact inner
          · exact absurd rfl notLast

theorem TimeGrid.mem_of_mem_onceEach {times : List α} {time : α} (member : time ∈ onceEach times) :
    time ∈ times :=
  mem_stableSort.mp ((eraseReps_sublist _).subset member)

/-- What is asked for by a window that leaves both ends open is all that was observed. -/
theorem Window.resolve_open {times : List α} {span : Span α}
    (resolved : Window.resolve {} times = .ok span) : Span.covering? times = some span := by
  have unasked : (({} : Window α)).latestAsked = none := rfl
  unfold Window.resolve at resolved
  split at resolved
  next observed covered =>
    simp only [unasked, Option.filter_none, Option.getD_none, ite_self] at resolved
    rw [(Span.ofEnds_eq resolved).1, covered]
  · cases resolved

variable [OrderedScalar α]

theorem le_of_head? {values : List α} (increasing : values.Pairwise (· < ·)) {first value : α}
    (head : values.head? = some first) (member : value ∈ values) (comparable : value ≤ value) :
    first ≤ value := by
  obtain ⟨rest, rfl⟩ := List.head?_eq_some_iff.mp head
  rcases List.mem_cons.mp member with rfl | later
  · exact comparable
  · exact le_of_lt ((List.pairwise_cons.mp increasing).1 value later)

theorem le_of_getLast? {values : List α} (increasing : values.Pairwise (· < ·)) {last value : α}
    (final : values.getLast? = some last) (member : value ∈ values) (comparable : value ≤ value) :
    value ≤ last := by
  obtain ⟨rest, rfl⟩ := List.getLast?_eq_some_iff.mp final
  rcases List.mem_append.mp member with earlier | isLast
  · exact le_of_lt ((List.pairwise_append.mp increasing).2.2 value earlier last (by simp))
  · exact List.mem_singleton.mp isLast ▸ comparable

/-- What lies between two values that are no outliers is none either. -/
theorem mem_withoutOutliers_of_between {values : List α} {low value high : α}
    (lowMember : low ∈ withoutOutliers values) (member : value ∈ values)
    (highMember : high ∈ withoutOutliers values) (above : low ≤ value) (below : value ≤ high) :
    value ∈ withoutOutliers values := by
  unfold withoutOutliers at *
  split
  · exact member
  next enough =>
    rw [if_neg enough] at lowMember highMember
    have lowAdmitted := (List.mem_filter.mp lowMember).2
    have highAdmitted := (List.mem_filter.mp highMember).2
    simp only [Fences.admits, Bool.and_eq_true, decide_eq_true_eq] at lowAdmitted highAdmitted
    refine List.mem_filter.mpr ⟨member, ?_⟩
    simp only [Fences.admits, Bool.and_eq_true, decide_eq_true_eq]
    exact ⟨le_trans lowAdmitted.1 above, le_trans below highAdmitted.2⟩

namespace TimeGrid

variable {times : List α} {span : Span α}

theorem pairwise_onceEach (comparable : ∀ time ∈ times, time ≤ time) :
    (onceEach times).Pairwise (· < ·) :=
  pairwise_lt_eraseReps (pairwise_sort comparable)

theorem exists_onceEach (comparable : ∀ time ∈ times, time ≤ time) {time : α}
    (member : time ∈ times) : ∃ kept ∈ onceEach times, (kept == time) = true :=
  exists_beq_eraseReps (fun other sorted => comparable other (mem_stableSort.mp sorted))
    (mem_stableSort.mpr member)

section Extent

variable (extent : span.IsExtent times) (comparable : ∀ time ∈ times, time ≤ time)

include extent comparable

theorem within_extent {time : α} (member : time ∈ times) :
    span.start ≤ time ∧ time ≤ span.stop :=
  ⟨le_of_precedes (comparable _ extent.start_mem) (comparable _ member)
      (extent.encloses time member).1,
    le_of_precedes (comparable _ member) (comparable _ extent.stop_mem)
      (extent.encloses time member).2⟩

theorem distinctTimes_of_extent : distinctTimes span times = onceEach times := by
  unfold distinctTimes onceEach
  rw [List.filter_eq_self.mpr fun time member =>
    Span.contains_iff.mpr (within_extent extent comparable member)]

/-- The least of the times is the start of their extent. -/
theorem head?_onceEach {time : α} (member : time ∈ onceEach times) :
    (onceEach times).head? = some time ↔ (span.start == time) = true := by
  have increasing := pairwise_onceEach comparable
  have own := mem_of_mem_onceEach member
  obtain ⟨kept, found, same⟩ := exists_onceEach comparable extent.start_mem
  obtain ⟨first, rest, split⟩ := List.exists_cons_of_ne_nil (List.ne_nil_of_mem member)
  have head : (onceEach times).head? = some first := by rw [split, List.head?_cons]
  have firstMember := List.mem_of_head? head
  have isFirst : (span.start == first) = true := by
    refine beq_iff_le_le.mpr
      ⟨(within_extent extent comparable (mem_of_mem_onceEach firstMember)).1, ?_⟩
    exact le_trans (le_of_head? increasing head found (comparable _ (mem_of_mem_onceEach found)))
      (le_of_beq same)
  rw [head, Option.some.injEq]
  constructor
  · rintro rfl
    exact isFirst
  · intro isTime
    exact eq_of_beq_of_mem increasing firstMember member (beq_trans (beq_symm isFirst) isTime)

/-- The greatest of the times is the stop of their extent. -/
theorem getLast?_onceEach {time : α} (member : time ∈ onceEach times) :
    (onceEach times).getLast? = some time ↔ (span.stop == time) = true := by
  have increasing := pairwise_onceEach comparable
  obtain ⟨kept, found, same⟩ := exists_onceEach comparable extent.stop_mem
  have final := List.getLast?_eq_some_getLast (List.ne_nil_of_mem member)
  generalize (onceEach times).getLast (List.ne_nil_of_mem member) = last at final
  have lastMember := List.mem_of_getLast? final
  have isLast : (span.stop == last) = true := by
    refine beq_iff_le_le.mpr
      ⟨?_, (within_extent extent comparable (mem_of_mem_onceEach lastMember)).2⟩
    exact le_trans (le_of_beq (beq_symm same))
      (le_of_getLast? increasing final found (comparable _ (mem_of_mem_onceEach found)))
  rw [final, Option.some.injEq]
  constructor
  · rintro rfl
    exact isLast
  · intro isTime
    exact eq_of_beq_of_mem increasing lastMember member (beq_trans (beq_symm isLast) isTime)

end Extent

variable {grid : TimeGrid α}

/-- The points of the grid: what no outlier stands between, and the two ends. -/
theorem shows_iff (built : build {} times = .ok grid) (comparable : ∀ time ∈ times, time ≤ time)
    {time : α} (member : time ∈ onceEach times) :
    grid.Shows time ↔ time ∈ (withoutOutliers (onceEach times)).tail.dropLast ∨
      (onceEach times).head? = some time ∨ (onceEach times).getLast? = some time := by
  obtain ⟨resolved, made⟩ := build_eq built
  have extent := Span.isExtent_covering? (Window.resolve_open resolved)
  have points : grid.points = betweenEnds grid.span (withoutOutliers (onceEach times)) := by
    rw [made, ← distinctTimes_of_extent extent comparable]
    rfl
  have sublist := withoutOutliers_sublist (onceEach times)
  have increasing := pairwise_onceEach comparable
  have inner {point : α} (found : point ∈ (withoutOutliers (onceEach times)).tail.dropLast) :
      point ∈ onceEach times :=
    sublist.subset ((List.tail_sublist _).subset ((List.dropLast_sublist _).subset found))
  rw [head?_onceEach extent comparable member, getLast?_onceEach extent comparable member]
  unfold Shows
  rw [points]
  rcases lt_or_beq_of_le (within_extent extent comparable extent.start_mem).2 with less | same
  · rw [(betweenEnds_of_lt less _).1]
    simp only [List.mem_cons, List.mem_append, List.not_mem_nil, or_false]
    constructor
    · rintro ⟨point, rfl | found | rfl, same⟩
      · exact .inr (.inl same)
      · exact .inl (eq_of_beq_of_mem increasing (inner found) member same ▸ found)
      · exact .inr (.inr same)
    · rintro (found | isStart | isStop)
      · exact ⟨time, .inr (.inl found), beq_self (comparable time (mem_of_mem_onceEach member))⟩
      · exact ⟨_, .inl rfl, isStart⟩
      · exact ⟨_, .inr (.inr rfl), isStop⟩
  · rw [(betweenEnds_of_same same _).1]
    simp only [List.mem_singleton, exists_eq_left]
    constructor
    · exact fun isStart => .inr (.inl isStart)
    · rintro (found | isStart | isStop)
      · have between := between_of_mem_inner (increasing.sublist sublist)
          (fun point kept => within_extent extent comparable
            (mem_of_mem_onceEach (sublist.subset kept))) found
        exact absurd same (not_beq_of_lt (OrderedScalar.lt_trans between.1 between.2))
      · exact isStart
      · exact beq_trans same isStop

theorem replacesEnds_of_comparable (built : build {} times = .ok grid)
    (comparable : ∀ time ∈ times, time ≤ time) : grid.ReplacesEnds times := by
  have sublist := withoutOutliers_sublist (onceEach times)
  have increasing := pairwise_onceEach comparable
  have shows {time : α} (member : time ∈ onceEach times) := shows_iff built comparable member
  have inner := mem_tail_dropLast (nodup_of_increasing (increasing.sublist sublist))
  have rejected : ∀ time ∈ onceEach times, time ∉ withoutOutliers (onceEach times) →
      (grid.Shows time ↔
        (onceEach times).head? = some time ∨ (onceEach times).getLast? = some time) := by
    intro time member outside
    rw [shows member, inner time]
    exact ⟨fun either => either.resolve_left fun both => outside both.1, .inr⟩
  have kept : ∀ time ∈ withoutOutliers (onceEach times),
      (grid.Shows time ↔
        ((withoutOutliers (onceEach times)).head? ≠ some time ∧
          (withoutOutliers (onceEach times)).getLast? ≠ some time) ∨
        (onceEach times).head? = some time ∨ (onceEach times).getLast? = some time) := by
    intro time member
    rw [shows (sublist.subset member), inner time, and_iff_right member]
  refine ⟨rejected, kept, fun leavesOut => ?_, fun complete => ⟨?_, ?_⟩⟩
  · -- The first and the last time are on the grid, so neither is an outlier; nor is then any
    -- time between them.
    have atEnd : ∀ time ∈ onceEach times,
        (onceEach times).head? = some time ∨ (onceEach times).getLast? = some time →
        time ∈ withoutOutliers (onceEach times) := by
      intro time member isEnd
      by_contra outside
      exact leavesOut.rejected time member outside ((rejected time member outside).mpr isEnd)
    refine sublist.antisymm (sublist_of_subset increasing (increasing.sublist sublist) ?_)
    intro time member
    have self := comparable time (mem_of_mem_onceEach member)
    obtain ⟨first, rest, split⟩ := List.exists_cons_of_ne_nil (List.ne_nil_of_mem member)
    have head : (onceEach times).head? = some first := by rw [split, List.head?_cons]
    have final := List.getLast?_eq_some_getLast (List.ne_nil_of_mem member)
    exact mem_withoutOutliers_of_between
      (atEnd _ (List.mem_of_head? head) (.inl head)) member
      (atEnd _ (List.mem_of_getLast? final) (.inr final))
      (le_of_head? increasing head member self) (le_of_getLast? increasing final member self)
  · intro time member outside
    rw [complete] at outside
    exact absurd member outside
  · intro time member
    rw [kept time member, complete]
    by_cases atEnd : (onceEach times).head? = some time ∨ (onceEach times).getLast? = some time
    · exact .inr atEnd
    · exact .inl (not_or.mp atEnd)

theorem replacesEnds_build {times : List Float} {grid : TimeGrid Float}
    (finite : ∀ time ∈ times, time.isFinite = true) (built : build {} times = .ok grid) :
    grid.ReplacesEnds times :=
  replacesEnds_of_comparable built fun time member =>
    Binary64.le_self_of_isFinite (finite time member)

/-- A clock that is off: one time far behind all others. -/
def strayTime : List Float :=
  [0, 1, 2, 3, 4, 5, 6, 7, 8, 9, 10, 1000]

theorem replacesEnds_build_stray_time : ∃ grid, build {} strayTime = .ok grid ∧
    grid.points = [0, 1, 2, 3, 4, 5, 6, 7, 8, 9, 1000] ∧ grid.ReplacesEnds strayTime := by
  have points : (build {} strayTime).toOption.map TimeGrid.points =
      some [0, 1, 2, 3, 4, 5, 6, 7, 8, 9, 1000] := by decide +kernel
  obtain ⟨grid, found, shown⟩ := Option.map_eq_some_iff.mp points
  have built := eq_ok_of_toOption found
  exact ⟨grid, built, shown, replacesEnds_build (by decide +kernel) built⟩

/-- The outlier is on the grid, in the place of the last time that is none. -/
theorem exists_not_leavesOutOutliers : ∃ grid, build {} strayTime = .ok grid ∧
    withoutOutliers (onceEach strayTime) = [0, 1, 2, 3, 4, 5, 6, 7, 8, 9, 10] ∧
    grid.points = [0, 1, 2, 3, 4, 5, 6, 7, 8, 9, 1000] ∧
    ¬ grid.LeavesOutOutliers strayTime := by
  have kept : withoutOutliers (onceEach strayTime) = [0, 1, 2, 3, 4, 5, 6, 7, 8, 9, 10] := by
    decide +kernel
  have points : (build {} strayTime).toOption.map TimeGrid.points =
      some [0, 1, 2, 3, 4, 5, 6, 7, 8, 9, 1000] := by decide +kernel
  obtain ⟨grid, found, shown⟩ := Option.map_eq_some_iff.mp points
  refine ⟨grid, eq_ok_of_toOption found, kept, shown, fun leavesOut => ?_⟩
  have last : (onceEach strayTime).getLast? = some 1000 := by decide +kernel
  have others : ∀ time ∈ [0, 1, 2, 3, 4, 5, 6, 7, 8, 9, 10], ¬ (time == (1000 : Float)) = true := by
    decide +kernel
  have shows : grid.Shows 1000 := ⟨1000, by rw [shown]; simp, by decide +kernel⟩
  refine leavesOut.rejected 1000 (List.mem_of_getLast? last) (fun member => ?_) shows
  rw [kept] at member
  exact others 1000 member (by decide +kernel)

end TimeGrid

end HostTimeline
