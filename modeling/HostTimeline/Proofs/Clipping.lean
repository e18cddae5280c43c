import HostTimeline.Proofs.Refill
import HostTimeline.Proofs.Steps
import HostTimeline.Proofs.Track
import Mathlib.Data.List.Sort

/-!
Observations clipped to a span.  They ascend from its start to its stop
(`clip_ascends`).  On a grid that no observed time is missing from, what a host shows repeats
them and leaves none out (`Track.exists_fills`).
-/

namespace HostTimeline

open OrderedScalar

variable {α : Type} [Scalar α]

namespace Span

variable {span : Span α} {observations : List (Observation α)}

theorem mem_ends {time : α} (member : time ∈ span.ends) : time = span.start ∨ time = span.stop := by
  unfold ends at member
  split at member
  · simpa using member
  · exact .inl (List.mem_singleton.mp member)

/-- With fewer than two observations one is repeated at both ends; otherwise the first and the
last are moved there. -/
theorem clip_cases (span : Span α) (observations : List (Observation α)) :
    (∃ place : α → Observation α, (∀ time, (place time).time = time) ∧
      span.clip observations = span.ends.map place) ∨
    ∃ first middle last, span.observed observations = first :: (middle ++ [last]) ∧
      span.clip observations =
        first.moveTo span.start :: (middle ++ [last.moveTo span.stop]) := by
  cases events : span.observed observations with
  | nil => exact .inl ⟨_, fun _ => rfl, span.clip_of_none events⟩
  | cons first rest =>
      rcases List.eq_nil_or_concat rest with rfl | ⟨middle, last, rfl⟩
      · exact .inl ⟨_, fun _ => rfl, span.clip_of_one events⟩
      · rw [List.concat_eq_append] at events ⊢
        exact .inr ⟨first, middle, last, rfl, span.clip_of_two events⟩

variable [OrderedScalar α]

theorem getLast?_clip (ordered : span.start ≤ span.stop) (observations : List (Observation α)) :
    ∃ last, (span.clip observations).getLast? = some last ∧ (last.time == span.stop) = true := by
  have stopComparable := (le_self_of_le ordered).2
  rcases span.clip_cases observations with
    ⟨place, timed, clipped⟩ | ⟨first, middle, last, _, clipped⟩
  · rw [clipped]
    unfold ends
    split
    · exact ⟨place span.stop, rfl, by rw [timed]; exact beq_self stopComparable⟩
    next short =>
      refine ⟨place span.start, rfl, ?_⟩
      rw [timed]
      exact (lt_or_beq_of_le ordered).resolve_left short
  · rw [clipped, ← List.cons_append, List.getLast?_concat]
    exact ⟨_, rfl, beq_self stopComparable⟩

theorem clip_ascends (ordered : span.start ≤ span.stop) (observations : List (Observation α)) :
    (span.clip observations).Pairwise fun left right => left.time ≤ right.time := by
  rcases span.clip_cases observations with
    ⟨place, timed, clipped⟩ | ⟨first, middle, last, events, clipped⟩
  · rw [clipped]
    unfold ends
    split <;> simp [timed, ordered]
  · have ascends := span.pairwise_observed observations
    rw [events] at ascends
    have within {event : Observation α} (member : event ∈ middle) :
        span.start ≤ event.time ∧ event.time ≤ span.stop := by
      have observed : event ∈ span.observed observations := by
        rw [events]
        exact List.mem_cons_of_mem first (List.mem_append_left _ member)
      exact le_of_mem_observed observed
    rw [clipped]
    refine List.pairwise_cons.mpr ⟨?_, List.pairwise_append.mpr
      ⟨(List.pairwise_append.mp (List.pairwise_cons.mp ascends).2).1,
        List.pairwise_singleton _ _, ?_⟩⟩
    · intro event member
      rcases List.mem_append.mp member with inner | isLast
      · exact (within inner).1
      · rw [List.mem_singleton.mp isLast]
        exact ordered
    · intro event member final isLast
      rw [List.mem_singleton.mp isLast]
      exact (within member).2

end Span

/-- No observed time within its span is missing from a grid. -/
def TimeGrid.IsComplete (grid : TimeGrid α) (times : List α) : Prop :=
  withoutOutliers (TimeGrid.distinctTimes grid.span times) =
    TimeGrid.distinctTimes grid.span times

instance [DecidableEq α] (grid : TimeGrid α) (times : List α) : Decidable (grid.IsComplete times) :=
  inferInstanceAs (Decidable (_ = _))

/-- Times that are equal by value are the same. -/
def IsUnambiguous (times : List α) : Prop :=
  ∀ left ∈ times, ∀ right ∈ times, (left == right) = true → left = right

variable [OrderedScalar α]

theorem sublist_of_subset {values points : List α} (ascending : values.Pairwise (· < ·))
    (increasing : points.Pairwise (· < ·)) (subset : values ⊆ points) :
    values.Sublist points := by
  have antisymm : Std.Antisymm fun left right : α => left < right :=
    ⟨fun _ _ less back => absurd (OrderedScalar.lt_trans less back) (lt_irrefl _)⟩
  exact List.sublist_of_subperm_of_pairwise
    (List.subperm_of_subset (nodup_of_increasing ascending) subset) ascending increasing

/-- What lies between two values of an ascending list is neither its first nor its last. -/
theorem mem_inner {points : List α} (increasing : points.Pairwise (· < ·)) {low point high : α}
    (lowMember : low ∈ points) (member : point ∈ points) (highMember : high ∈ points)
    (above : low < point) (below : point < high) : point ∈ points.tail.dropLast := by
  cases points with
  | nil => cases member
  | cons first rest =>
      obtain ⟨least, increasingRest⟩ := List.pairwise_cons.mp increasing
      have later {value : α} (found : value ∈ first :: rest) (notFirst : low < value) :
          value ∈ rest := by
        rcases List.mem_cons.mp found with rfl | inRest
        · rcases List.mem_cons.mp lowMember with rfl | lowLater
          · exact absurd notFirst (lt_irrefl _)
          · exact absurd (OrderedScalar.lt_trans notFirst (least low lowLater)) (lt_irrefl _)
        · exact inRest
      have inRest := later member above
      have highInRest := later highMember (OrderedScalar.lt_trans above below)
      rcases List.eq_nil_or_concat rest with rfl | ⟨inner, last, rfl⟩
      · cases inRest
      · rw [List.concat_eq_append] at *
        rw [List.tail_cons, List.dropLast_concat]
        have greatest := (List.pairwise_append.mp increasingRest).2.2
        rcases List.mem_append.mp inRest with inside | isLast
        · exact inside
        · rw [List.mem_singleton.mp isLast] at below
          rcases List.mem_append.mp highInRest with highInside | highLast
          · exact absurd (OrderedScalar.lt_trans below (greatest high highInside last (by simp)))
              (lt_irrefl _)
          · rw [List.mem_singleton.mp highLast] at below
            exact absurd below (lt_irrefl _)

namespace TimeGrid

variable {grid : TimeGrid α} {times : List α}

theorem mem_distinctTimes {span : Span α} {time : α} (comparable : ∀ time ∈ times, time ≤ time)
    (unambiguous : IsUnambiguous times) (member : time ∈ times) (within : span.contains time = true) :
    time ∈ distinctTimes span times := by
  have sorted : time ∈ Scalar.sort (times.filter span.contains) :=
    mem_stableSort.mpr (List.mem_filter.mpr ⟨member, within⟩)
  -- Of equal times the first is kept, which need not be the one that was asked for.
  obtain ⟨kept, found, same⟩ := exists_beq_eraseReps (fun other otherMember =>
    comparable other (List.mem_filter.mp (mem_stableSort.mp otherMember)).1) sorted
  rw [← unambiguous kept (mem_of_mem_distinctTimes found).1 time member same]
  exact found

theorem betweenEnds_of_same {span : Span α} (same : (span.start == span.stop) = true)
    (points : List α) : betweenEnds span points = [span.start] ∧ span.ends = [span.start] :=
  ⟨if_pos same, if_neg fun less => not_beq_of_lt less same⟩

theorem betweenEnds_of_lt {span : Span α} (less : span.start < span.stop) (points : List α) :
    betweenEnds span points = span.start :: (points.tail.dropLast ++ [span.stop]) ∧
      span.ends = [span.start, span.stop] :=
  ⟨if_neg (not_beq_of_lt less), if_pos less⟩

theorem ends_onGrid {span : Span α} (ordered : span.start ≤ span.stop) (points : List α) :
    span.ends.Sublist (betweenEnds span points) ∧
      span.ends.getLast? = (betweenEnds span points).getLast? := by
  rcases lt_or_beq_of_le ordered with less | same
  · obtain ⟨between, ends⟩ := betweenEnds_of_lt less points
    rw [between, ends]
    exact ⟨.cons_cons _ (List.sublist_append_right _ _), by simp [List.getLast?_cons]⟩
  · obtain ⟨between, ends⟩ := betweenEnds_of_same same points
    rw [between, ends]
    exact ⟨.refl _, rfl⟩

/-- Every clipped observation is made at a point of a complete grid, and the last one at its
end. -/
theorem clip_onGrid {observations : List (Observation α)} (made : grid = ofSpan grid.span times)
    (complete : grid.IsComplete times) (ordered : grid.span.start ≤ grid.span.stop)
    (comparable : ∀ time ∈ times, time ≤ time) (unambiguous : IsUnambiguous times)
    (reported : ∀ observation ∈ observations, observation.time ∈ times)
    (apart : (grid.span.observed observations).Pairwise Observation.Apart) :
    ((grid.span.clip observations).map Observation.time).Sublist grid.points ∧
      ((grid.span.clip observations).map Observation.time).getLast? = grid.points.getLast? := by
  have points : grid.points = betweenEnds grid.span (distinctTimes grid.span times) := by
    rw [made]
    exact congrArg (betweenEnds grid.span) complete
  rw [points]
  rcases grid.span.clip_cases observations with
    ⟨place, timed, clipped⟩ | ⟨first, middle, last, events, clipped⟩
  · have atEnds : (grid.span.clip observations).map Observation.time = grid.span.ends := by
      rw [clipped, List.map_map]
      exact List.map_id'' timed _
    rw [atEnds]
    exact ends_onGrid ordered _
  · -- The first and the last observation move to the ends of the grid.  Those between them are
    -- made strictly inside, so the ends that replace the outermost times hide none of them.
    have increasing : (first :: (middle ++ [last])).Pairwise fun left right =>
        left.time < right.time := by
      have ascends := grid.span.pairwise_observed observations
      rw [events] at ascends apart
      exact (List.pairwise_and_iff.mpr ⟨ascends, apart⟩).imp fun both =>
        (lt_or_beq_of_le both.1).resolve_right both.2
    have observed {event : Observation α} (member : event ∈ first :: (middle ++ [last])) :
        event ∈ grid.span.observed observations := events ▸ member
    have distinct {event : Observation α} (member : event ∈ first :: (middle ++ [last])) :
        event.time ∈ distinctTimes grid.span times := by
      obtain ⟨known, within⟩ := Span.mem_observed.mp (observed member)
      exact mem_distinctTimes comparable unambiguous (reported event known) within
    obtain ⟨afterFirst, increasingRest⟩ := List.pairwise_cons.mp increasing
    obtain ⟨increasingMiddle, _, beforeLast⟩ := List.pairwise_append.mp increasingRest
    have lastDistinct : last.time ∈ distinctTimes grid.span times := distinct (by simp)
    have less : grid.span.start < grid.span.stop := by
      have whole := afterFirst last (by simp)
      exact lt_of_le_of_lt (Span.le_of_mem_observed (observed List.mem_cons_self)).1
        (lt_of_lt_of_le whole (Span.le_of_mem_observed (observed (by simp))).2)
    have inner : (middle.map Observation.time).Sublist
        (distinctTimes grid.span times).tail.dropLast := by
      have ascends := pairwise_distinctTimes grid.span times
      refine sublist_of_subset (List.pairwise_map.mpr increasingMiddle)
        (ascends.sublist ((List.dropLast_sublist _).trans (List.tail_sublist _))) ?_
      intro time member
      obtain ⟨event, found, rfl⟩ := List.mem_map.mp member
      exact mem_inner ascends (distinct List.mem_cons_self)
        (distinct (List.mem_cons_of_mem first (List.mem_append_left _ found)))
        lastDistinct (afterFirst event (List.mem_append_left _ found))
        (beforeLast event found last List.mem_cons_self)
    rw [clipped, (betweenEnds_of_lt less _).1]
    simp only [List.map_cons, List.map_append, List.map_nil, Observation.moveTo_time]
    exact ⟨(inner.append (.refl _)).cons_cons _, by simp [List.getLast?_cons]⟩

end TimeGrid

/-- What a host shows on a complete grid begins with its first observation and goes through all
others. -/
theorem Track.exists_fills {grid : TimeGrid α} {times : List α} {observations : List (Observation α)}
    (spanned : grid.IsSpanned times) (made : grid = TimeGrid.ofSpan grid.span times)
    (complete : grid.IsComplete times) (comparable : ∀ time ∈ times, time ≤ time)
    (unambiguous : IsUnambiguous times)
    (reported : ∀ observation ∈ observations, observation.time ∈ times)
    (apart : (grid.span.observed observations).Pairwise Observation.Apart) (name : String) :
    ∃ first rest filled, (Track.build grid name observations).observations = first :: rest ∧
      (Track.build grid name observations).onGrid = first :: filled ∧
      Fills Observation.moveTo first rest filled := by
  obtain ⟨onGrid, ends⟩ := TimeGrid.clip_onGrid made complete spanned.start_le_stop comparable
    unambiguous reported apart
  obtain ⟨first, rest, clipped, atStart⟩ := grid.span.clip_exists observations
  obtain ⟨later, points⟩ := List.head?_eq_some_iff.mp spanned.first
  have increasing := spanned.increasing
  rw [clipped, points, List.map_cons, atStart] at onGrid ends
  rw [points] at increasing
  obtain ⟨above, increasingLater⟩ := List.pairwise_cons.mp increasing
  have laterOnGrid := List.cons_sublist_cons.mp onGrid
  have startComparable := (le_self_of_le spanned.start_le_stop).1
  have beyond : ∀ other ∈ rest, ¬ other.time ≤ grid.span.start := fun other member =>
    not_le_of_lt (above _ (laterOnGrid.subset (List.mem_map_of_mem member)))
  have still : first.moveTo grid.span.start = first := by rw [← atStart]; rfl
  refine ⟨first, rest, _, clipped, ?_, carryForward_fills laterOnGrid
    (getLast?_eq_of_cons above laterOnGrid ends) increasingLater ?_ (fun _ _ => rfl) first⟩
  · change carryForward _ _ _ (grid.span.clip observations) grid.points = _
    rw [clipped, points, carryForward_of_reached _ (atStart ▸ startComparable) beyond, still]
  · exact fun point member => (le_self_of_le (OrderedScalar.le_of_lt (above point member))).2

namespace Timeline

variable {timeline : Timeline α} {hosts : HostMap (List (Observation α))}

/-- Nothing observed within the span is hidden: no time is taken for an outlier, and no host was
observed twice at one time. -/
structure ShowsAll (timeline : Timeline α) (hosts : HostMap (List (Observation α))) : Prop where
  complete : timeline.grid.IsComplete
    (hosts.values.flatMap fun observations => observations.map Observation.time)
  apart : ∀ observations ∈ hosts.values,
    (timeline.grid.span.observed observations).Pairwise Observation.Apart

instance [DecidableEq α] (timeline : Timeline α) (hosts : HostMap (List (Observation α))) :
    Decidable (timeline.ShowsAll hosts) :=
  decidable_of_iff (TimeGrid.IsComplete timeline.grid _ ∧ ∀ observations ∈ hosts.values,
      (timeline.grid.span.observed observations).Pairwise Observation.Apart)
    ⟨fun both => ⟨both.1, both.2⟩, fun shows => ⟨shows.complete, shows.apart⟩⟩

theorem ShowsAll.exists_fills (shows : timeline.ShowsAll hosts) {window : Window α}
    (built : Timeline.build window hosts = .ok timeline) (windowComparable : window.IsComparable)
    (comparable : ∀ time ∈ hosts.values.flatMap fun observations =>
      observations.map Observation.time, time ≤ time)
    (unambiguous : IsUnambiguous
      (hosts.values.flatMap fun observations => observations.map Observation.time))
    {track : Track α} (member : track ∈ timeline.tracks) :
    ∃ first rest filled, track.observations = first :: rest ∧ track.onGrid = first :: filled ∧
      Fills Observation.moveTo first rest filled := by
  obtain ⟨gridBuilt, tracks⟩ := build_eq built
  rw [tracks] at member
  obtain ⟨entry, found, rfl⟩ := List.mem_map.mp member
  have value : entry.2 ∈ hosts.values :=
    List.mem_map_of_mem (hosts.perm_sorted.mem_iff.mp found)
  exact Track.exists_fills (TimeGrid.isSpanned_of_comparable windowComparable comparable gridBuilt)
    (TimeGrid.build_eq gridBuilt).2 shows.complete comparable unambiguous
    (fun observation reported => List.mem_flatMap.mpr
      ⟨entry.2, value, List.mem_map_of_mem reported⟩) (shows.apart entry.2 value) entry.1

end Timeline

end HostTimeline
