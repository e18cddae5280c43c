import HostTimeline.Proofs.Condense
import HostTimeline.Proofs.Track

/-!
What condensing leaves of the observations within a span: what it would leave of them alone,
without those at the beginning that repeat the last observation before the span
(`Span.observed_condense`).
-/

namespace HostTimeline

open Observation OrderedScalar

variable {α : Type} [Scalar α]

/-- Ends that are equal by value. -/
@[mk_iff]
structure Span.Matches (left right : Span α) : Prop where
  start : (left.start == right.start) = true
  stop : (left.stop == right.stop) = true

instance (left right : Span α) : Decidable (left.Matches right) :=
  decidable_of_iff _ (Span.matches_iff left right).symm

/-- The last observation before a span. -/
def Span.preceding? (span : Span α) (observations : List (Observation α)) :
    Option (Observation α) :=
  (sortByTime (observations.filter fun observation =>
    decide (observation.time < span.start))).getLast?

theorem Criteria.condense_everyField (observations : List (Observation α)) :
    everyField.condense observations = everyField.condenseSorted (sortByTime observations) :=
  congrArg everyField.condenseSorted (List.map_id'' (fun _ => rfl) _)

theorem Criteria.condense_sublist (observations : List (Observation α)) :
    (everyField.condense observations).Sublist (sortByTime observations) := by
  rw [condense_everyField]
  exact everyField.condenseSorted_sublist _

theorem Criteria.mem_of_mem_condense {observations : List (Observation α)}
    {observation : Observation α} (member : observation ∈ everyField.condense observations) :
    observation ∈ observations :=
  mem_stableSort.mp ((condense_sublist observations).subset member)

namespace Span

variable {span : Span α} {observations : List (Observation α)} {observation : Observation α}

theorem mem_of_mem_observed (member : observation ∈ span.observed observations) :
    observation ∈ observations :=
  (mem_observed.mp member).1

theorem mem_observed_of_condense
    (member : observation ∈ span.observed (Criteria.everyField.condense observations)) :
    observation ∈ span.observed observations := by
  obtain ⟨retained, within⟩ := mem_observed.mp member
  exact mem_observed.mpr ⟨Criteria.mem_of_mem_condense retained, within⟩

end Span

variable [OrderedScalar α]

theorem Observation.filter_sortByTime (keep : Observation α → Bool)
    (observations : List (Observation α)) :
    (sortByTime observations).filter keep = sortByTime (observations.filter keep) :=
  filter_sortOn Observation.time keep observations

namespace Span

variable {span other : Span α} {observations : List (Observation α)}

theorem contains_congr (same : span.Matches other) : span.contains = other.contains := by
  funext time
  unfold contains
  rw [Bool.eq_iff_iff]
  simp only [Bool.and_eq_true, decide_eq_true_eq]
  rw [le_congr (.inr same.start) (.inl rfl), le_congr (.inl rfl) (.inr same.stop)]

theorem observed_congr (same : span.Matches other) (observations : List (Observation α)) :
    span.observed observations = other.observed observations := by
  unfold observed
  rw [contains_congr same]

/-- Ascending observations are those before, within and after a span. -/
theorem split_ascending (ordered : span.start ≤ span.stop)
    (comparable : ∀ observation ∈ observations, observation.time ≤ observation.time)
    (ascending : observations.Pairwise fun left right => left.time ≤ right.time) :
    observations =
      (observations.filter fun observation => decide (observation.time < span.start)) ++
        ((observations.filter fun observation => span.contains observation.time) ++
          observations.filter fun observation => decide (span.stop < observation.time)) := by
  obtain ⟨startComparable, stopComparable⟩ := le_self_of_le ordered
  induction ascending with
  | nil => rfl
  | @cons first rest below _ ih =>
      have here := comparable first List.mem_cons_self
      have later := ih fun observation member => comparable observation (List.mem_cons_of_mem first member)
      by_cases early : first.time < span.start
      · have outside : span.contains first.time = false := by
          refine Bool.eq_false_iff.mpr fun within => ?_
          exact not_le_of_lt early (contains_iff.mp within).1
        have notLate : ¬ span.stop < first.time := fun late =>
          not_le_of_lt early (OrderedScalar.le_trans ordered (OrderedScalar.le_of_lt late))
        simp only [List.filter_cons, early, outside, notLate]
        exact congrArg (first :: ·) later
      · have reached := le_of_not_lt here startComparable early
        have noneEarly : (rest.filter fun observation =>
            decide (observation.time < span.start)) = [] := by
          refine List.filter_eq_nil_iff.mpr fun observation member less => ?_
          exact not_le_of_lt (of_decide_eq_true less)
            (OrderedScalar.le_trans reached (below observation member))
        rw [noneEarly, List.nil_append] at later
        by_cases late : span.stop < first.time
        · have outside : span.contains first.time = false := by
            refine Bool.eq_false_iff.mpr fun within => ?_
            exact not_le_of_lt late (contains_iff.mp within).2
          have noneWithin : (rest.filter fun observation =>
              span.contains observation.time) = [] := by
            refine List.filter_eq_nil_iff.mpr fun observation member within => ?_
            exact not_le_of_lt late
              (OrderedScalar.le_trans (below observation member) (contains_iff.mp within).2)
          rw [noneWithin, List.nil_append] at later
          simp only [List.filter_cons, early, outside, late, noneEarly, noneWithin]
          exact congrArg (first :: ·) later
        · have within : span.contains first.time = true :=
            contains_iff.mpr ⟨reached, le_of_not_lt stopComparable here late⟩
          simp only [List.filter_cons, early, within, late, noneEarly]
          exact congrArg (first :: ·) later

/-- What condensing leaves within a span. -/
theorem observed_condense (ordered : span.start ≤ span.stop)
    (comparable : ∀ observation ∈ observations, observation.IsComparable) :
    span.observed (Criteria.everyField.condense observations) =
      Criteria.everyField.condenseSorted
        (Criteria.entered (span.preceding? observations) (span.observed observations)) := by
  have retained : span.observed (Criteria.everyField.condense observations) =
      (Criteria.everyField.condense observations).filter fun observation =>
        span.contains observation.time := by
    refine stableSort_eq_self (List.Pairwise.sublist ?_
      (pairwise_precedes_sortOn Observation.time observations))
    exact List.filter_sublist.trans (Criteria.condense_sublist observations)
  have sortedComparable : ∀ observation ∈ sortByTime observations, observation.IsComparable :=
    fun observation member => comparable observation (mem_stableSort.mp member)
  have split := split_ascending ordered
    (fun observation member => (sortedComparable observation member).time)
    (pairwise_sortOn fun observation member => (comparable observation member).time)
  rw [retained, Criteria.condense_everyField, preceding?, observed, ← filter_sortByTime,
    ← filter_sortByTime]
  have early {observation : Observation α} (member : observation ∈ (sortByTime observations).filter
      fun observation => decide (observation.time < span.start)) :
      observation.time < span.start :=
    of_decide_eq_true (List.mem_filter.mp member).2
  have within {observation : Observation α} (member : observation ∈ (sortByTime observations).filter
      fun observation => span.contains observation.time) :
      span.start ≤ observation.time ∧ observation.time ≤ span.stop :=
    contains_iff.mp (List.mem_filter.mp member).2
  have late {observation : Observation α} (member : observation ∈ (sortByTime observations).filter
      fun observation => decide (span.stop < observation.time)) :
      span.stop < observation.time :=
    of_decide_eq_true (List.mem_filter.mp member).2
  refine (congrArg _ (congrArg _ split)).trans (Criteria.filter_condenseSorted ?_ ?_ ?_ ?_ ?_ ?_)
  · exact fun observation member => sortedComparable observation (List.mem_filter.mp member).1
  · intro observation member
    refine Bool.eq_false_iff.mpr fun contained => ?_
    exact not_le_of_lt (early member) (contains_iff.mp contained).1
  · exact fun observation member => (List.mem_filter.mp member).2
  · intro observation member
    refine Bool.eq_false_iff.mpr fun contained => ?_
    exact not_le_of_lt (late member) (contains_iff.mp contained).2
  · intro observation member other found
    have below : observation.time < other.time := by
      rcases List.mem_append.mp found with inside | beyond
      · exact lt_of_lt_of_le (early member) (within inside).1
      · exact OrderedScalar.lt_trans (lt_of_lt_of_le (early member) ordered) (late beyond)
    exact not_beq_of_lt below
  · intro observation member other found
    exact not_beq_of_lt (lt_of_le_of_lt (within member).2 (late found))

end Span

end HostTimeline
