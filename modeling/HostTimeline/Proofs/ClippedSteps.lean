import HostTimeline.Proofs.Retained

/-!
The steps of a host within a span, with and without condensing.  Clipping moves the first and
the last observation to the ends of the span.  So condensing keeps the steps exactly if it
drops neither of these two, or dropping the last one moves a step that is at the stop anyway
(`Span.sameSteps_iff`).
-/

namespace HostTimeline

open Observation OrderedScalar

variable {α : Type} [Scalar α]

/-- The first and the last observation within a span count, and no two changes are at once. -/
@[mk_iff]
structure Span.ShowsSteps (span : Span α) (observations : List (Observation α)) : Prop where
  /-- The first observation differs from the last one before the span. -/
  entered : ∀ previous ∈ span.preceding? observations,
    ∀ first ∈ (span.observed observations).head?, previous.Differs first
  /-- Successive steps begin at different times. -/
  apart : (steps (span.observed observations)).IsChain Apart
  /-- If anything changes, the last observation is a change, or the last change is at the
  stop of the span. -/
  left : (steps (span.observed observations)).length ≤ 1 ∨
    (∀ previous ∈ (span.observed observations).dropLast.getLast?,
      ∀ last ∈ (span.observed observations).getLast?, previous.Differs last) ∨
    ∀ step ∈ (steps (span.observed observations)).getLast?, (span.stop == step.time) = true

/-- Nothing was observed within a span but an unknown host that offers and uses nothing. -/
def Span.IsVacant (span : Span α) (observations : List (Observation α)) : Prop :=
  ∀ observation ∈ span.observed observations, observation.Agrees (vacant span.start .unknown)

/-- The observations that condensing may drop without a change of the steps in a span. -/
def Span.RetainsSteps (span : Span α) (observations : List (Observation α)) : Prop :=
  span.IsVacant observations ∨ span.ShowsSteps observations

instance (span : Span α) (observations : List (Observation α)) :
    Decidable (span.ShowsSteps observations) :=
  decidable_of_iff _ (span.showsSteps_iff observations).symm

instance (span : Span α) (observations : List (Observation α)) :
    Decidable (span.IsVacant observations) :=
  inferInstanceAs (Decidable (∀ observation ∈ _, _))

instance (span : Span α) (observations : List (Observation α)) :
    Decidable (span.RetainsSteps observations) :=
  instDecidableOr

variable [OrderedScalar α]

theorem forall₂_concat {β γ : Type} {related : β → γ → Prop} {left : List β} {right : List γ}
    {last : β} {other : γ} (length : left.length = right.length) :
    List.Forall₂ related (left ++ [last]) (right ++ [other]) ↔
      List.Forall₂ related left right ∧ related last other := by
  constructor
  · intro both
    have front := List.forall₂_take_append _ _ _ both
    have back := List.forall₂_drop_append _ _ _ both
    rw [← length, List.take_left] at front
    rw [← length, List.drop_left] at back
    exact ⟨front, (List.forall₂_cons.mp back).1⟩
  · intro ⟨front, back⟩
    exact List.rel_append front (.cons back .nil)

namespace Span

variable {span other : Span α} {observations : List (Observation α)}

theorem steps_clip_of_none (events : span.observed observations = []) :
    steps (span.clip observations) = [vacant span.start .unknown] := by
  rw [clip_of_none span events]
  unfold ends
  split
  · rw [List.map_cons, List.map_singleton, steps_cons, changes_of_agrees (vacant_agrees _ _ _)]
    rfl
  · rfl

theorem steps_clip_of_agree {value first : Observation α} {rest : List (Observation α)}
    (events : span.observed observations = first :: rest)
    (agree : ∀ observation ∈ first :: rest, observation.Agrees value) :
    steps (span.clip observations) = [first.moveTo span.start] := by
  have same : ∀ observation ∈ first :: rest, observation.Agrees first :=
    fun observation member =>
      (agree observation member).trans (agree first List.mem_cons_self).symm
  rcases List.eq_nil_or_concat rest with rfl | ⟨middle, last, rfl⟩
  · rw [clip_of_one span events]
    unfold ends
    have again : (first.moveTo span.stop).Agrees (first.moveTo span.start) :=
      agrees_moveTo.mpr (moveTo_agrees.mpr (same first List.mem_cons_self))
    split
    · rw [List.map_cons, List.map_singleton, steps_cons, changes_of_agrees again]
      rfl
    · rfl
  · rw [List.concat_eq_append] at events same
    have repeats : ∀ observation ∈ middle ++ [last.moveTo span.stop], observation.Agrees first := by
      intro observation member
      rcases List.mem_append.mp member with inner | isLast
      · exact same observation (List.mem_cons_of_mem _ (List.mem_append_left _ inner))
      · rw [List.mem_singleton.mp isLast]
        exact agrees_moveTo.mpr (same last (by simp))
    have none := changes_append_of_agrees repeats []
    rw [List.append_nil, changes_nil] at none
    rw [clip_of_two span events, steps_cons, changes_moveTo, none]

theorem steps_clip_of_one {only : Observation α} (comparable : only.IsComparable)
    (events : span.observed observations = [only]) :
    steps (span.clip observations) = [only.moveTo span.start] := by
  have alone : ∀ observation ∈ [only], observation.Agrees only := by
    intro observation member
    rw [List.mem_singleton.mp member]
    exact comparable.agrees
  exact steps_clip_of_agree events alone

theorem steps_clip_of_two {first last : Observation α} {middle : List (Observation α)}
    (events : span.observed observations = first :: (middle ++ [last])) :
    steps (span.clip observations) = first.moveTo span.start :: (changes first middle ++
      if (lastOf first middle).Differs last then [last.moveTo span.stop] else []) := by
  have moved : (lastOf first middle).Differs (last.moveTo span.stop) ↔
      (lastOf first middle).Differs last := not_congr agrees_moveTo
  rw [clip_of_two span events, steps_cons, changes_moveTo, changes_concat]
  simp only [moved]

/-- Clipping moves steps, but leaves their number as it is. -/
theorem length_steps_clip {first : Observation α} {rest : List (Observation α)}
    (comparable : first.IsComparable)
    (events : span.observed observations = first :: rest) :
    (steps (span.clip observations)).length = (steps (first :: rest)).length := by
  rcases List.eq_nil_or_concat rest with rfl | ⟨middle, last, rfl⟩
  · rw [steps_clip_of_one comparable events]
    rfl
  · rw [List.concat_eq_append] at events ⊢
    rw [steps_clip_of_two events, steps_cons, changes_concat]
    split <;> simp

/-- If no observation repeats the one before it, clipping leaves them all. -/
theorem steps_clip_of_changes {first last : Observation α} {inner : List (Observation α)}
    (events : span.observed observations = first :: (inner ++ [last]))
    (all : changes first (inner ++ [last]) = inner ++ [last]) :
    steps (span.clip observations) =
      first.moveTo span.start :: (inner ++ [last.moveTo span.stop]) := by
  rw [changes_concat] at all
  rw [steps_clip_of_two events]
  by_cases differs : (lastOf first inner).Differs last
  · rw [if_pos differs] at all ⊢
    rw [List.append_cancel_right all]
  · rw [if_neg differs, List.append_nil] at all
    have short := (changes_sublist first inner).length_le
    rw [all, List.length_append, List.length_singleton] at short
    exact absurd short (Nat.not_succ_le_self _)

/-- If exactly the steps are left and the last observation begins one, clipping moves the same
observations. -/
theorem sameSteps_of_differs {retained : List (Observation α)} {first last : Observation α}
    {middle : List (Observation α)} (same : span.Matches other)
    (events : span.observed observations = first :: (middle ++ [last]))
    (kept : other.observed retained = steps (first :: (middle ++ [last])))
    (comparable : ∀ observation ∈ first :: (middle ++ [last]), observation.IsComparable)
    (differs : (lastOf first middle).Differs last) :
    SameSteps (other.clip retained) (span.clip observations) := by
  have again := changes_changes first (middle ++ [last])
  rw [steps_cons] at kept
  rw [changes_concat, if_pos differs] at kept again
  unfold SameSteps
  rw [steps_clip_of_changes kept again, steps_clip_of_two events, if_pos differs]
  have inner : ∀ observation ∈ changes first middle, observation.IsComparable := by
    intro observation member
    exact comparable observation (List.mem_cons_of_mem first
      (List.mem_append_left _ ((changes_sublist first middle).subset member)))
  have fronts := (comparable first List.mem_cons_self).matches_moveTo (beq_symm same.start)
  have backs := (comparable last (by simp)).matches_moveTo (beq_symm same.stop)
  exact .cons fronts (List.rel_append (forall₂_matches_self inner) (.cons backs .nil))

/-- If exactly the steps are left and the last observation begins none, clipping moves the last
step to the stop. -/
theorem sameSteps_iff_of_agrees {retained : List (Observation α)} {first last : Observation α}
    {middle : List (Observation α)} (same : span.Matches other)
    (events : span.observed observations = first :: (middle ++ [last]))
    (kept : other.observed retained = steps (first :: (middle ++ [last])))
    (comparable : ∀ observation ∈ first :: (middle ++ [last]), observation.IsComparable)
    (agrees : ¬ (lastOf first middle).Differs last) :
    SameSteps (other.clip retained) (span.clip observations) ↔
      (steps (first :: (middle ++ [last]))).length ≤ 1 ∨
        ∀ step ∈ (steps (first :: (middle ++ [last]))).getLast?, (span.stop == step.time) = true := by
  have here := comparable first List.mem_cons_self
  have fronts := here.matches_moveTo (beq_symm same.start)
  have again := changes_changes first (middle ++ [last])
  unfold SameSteps
  rw [steps_cons] at kept ⊢
  rw [changes_concat, if_neg agrees, List.append_nil] at kept again ⊢
  rw [steps_clip_of_two events, if_neg agrees, List.append_nil]
  rcases List.eq_nil_or_concat (changes first middle) with none | ⟨inner, step, made⟩
  · rw [none] at kept ⊢
    rw [steps_clip_of_one here kept]
    exact iff_of_true (.cons fronts .nil) (.inl (Nat.le_refl 1))
  · rw [List.concat_eq_append] at made
    have known : ∀ observation ∈ inner ++ [step], observation.IsComparable := by
      intro observation member
      exact comparable observation (List.mem_cons_of_mem first
        (List.mem_append_left _ ((changes_sublist first middle).subset (made ▸ member))))
    have inners : List.Forall₂ Observation.Matches inner inner :=
      forall₂_matches_self fun observation member =>
        known observation (List.mem_append_left _ member)
    have shown : (first :: (inner ++ [step])).getLast? = some step := by
      rw [← List.cons_append, List.getLast?_concat]
    rw [made] at kept again ⊢
    rw [steps_clip_of_changes kept again, shown, List.forall₂_cons, forall₂_concat rfl]
    constructor
    · intro ⟨_, _, matched⟩
      refine .inr ?_
      intro found member
      cases member
      exact beq_trans same.stop matched.time
    · rintro (short | atStop)
      · simp at short
      · refine ⟨fronts, inners, ?_, ?_⟩
        · exact beq_trans (beq_symm same.stop) (atStop step rfl)
        · exact agrees_moveTo.mpr (known step (by simp)).agrees

/-- If exactly the steps are left, all depends on the last one. -/
theorem sameSteps_iff_left {retained : List (Observation α)} {first : Observation α}
    {rest : List (Observation α)} (same : span.Matches other)
    (events : span.observed observations = first :: rest)
    (kept : other.observed retained = steps (first :: rest))
    (comparable : ∀ observation ∈ first :: rest, observation.IsComparable) :
    SameSteps (other.clip retained) (span.clip observations) ↔
      (steps (first :: rest)).length ≤ 1 ∨
      (∀ previous ∈ (first :: rest).dropLast.getLast?, ∀ last ∈ (first :: rest).getLast?,
        previous.Differs last) ∨
      ∀ step ∈ (steps (first :: rest)).getLast?, (span.stop == step.time) = true := by
  rcases List.eq_nil_or_concat rest with rfl | ⟨middle, last, rfl⟩
  · have here := comparable first List.mem_cons_self
    unfold SameSteps
    rw [steps_clip_of_one here events, steps_clip_of_one here kept]
    exact iff_of_true (.cons (here.matches_moveTo (beq_symm same.start)) .nil)
      (.inl (Nat.le_refl 1))
  · rw [List.concat_eq_append] at *
    have previous : (first :: (middle ++ [last])).dropLast.getLast? = some (lastOf first middle) := by
      rw [← List.cons_append, List.dropLast_concat, List.getLast?_cons]
      rfl
    have final : (first :: (middle ++ [last])).getLast? = some last := by
      rw [← List.cons_append, List.getLast?_concat]
    simp only [previous, final, Option.mem_some_iff, forall_eq']
    by_cases differs : (lastOf first middle).Differs last
    · exact iff_of_true (sameSteps_of_differs same events kept comparable differs)
        (.inr (.inl differs))
    · rw [sameSteps_iff_of_agrees same events kept comparable differs, or_iff_right differs]

/-- What entering a span drops repeats the observation before it. -/
theorem entered_cases {first : Observation α} {rest : List (Observation α)}
    (previous : Option (Observation α)) :
    (Criteria.entered previous (first :: rest) = first :: rest ∧
      ∀ before ∈ previous, before.Differs first) ∨
    (Criteria.entered previous (first :: rest) = [] ∧
      ∃ before ∈ previous, ∀ observation ∈ first :: rest, observation.Agrees before) ∨
    ∃ next later, Criteria.entered previous (first :: rest) = next :: later ∧
      steps (first :: rest) = first :: steps (next :: later) := by
  cases previous with
  | none => exact .inl ⟨rfl, fun before found => by cases found⟩
  | some before =>
      by_cases differs : before.Differs first
      · refine .inl ⟨Criteria.entered_of_differs differs rest, fun other found => ?_⟩
        cases found
        exact differs
      · have agrees := not_not.mp differs
        rw [Criteria.entered_of_agrees agrees]
        refine .inr ?_
        have split := List.takeWhile_append_dropWhile (p := fun next =>
          decide (next.Agrees before)) (l := rest)
        have repeats : ∀ observation ∈ rest.takeWhile fun next => decide (next.Agrees before),
            observation.Agrees before :=
          fun observation member => by simpa using List.mem_takeWhile_imp member
        cases entered : Criteria.entered (some before) rest with
        | nil =>
            refine .inl ⟨rfl, before, rfl, ?_⟩
            change rest.dropWhile _ = [] at entered
            rw [entered, List.append_nil] at split
            rw [split] at repeats
            intro observation member
            rcases List.mem_cons.mp member with rfl | later
            · exact agrees
            · exact repeats observation later
        | cons next later =>
            refine .inr ⟨next, later, rfl, ?_⟩
            change rest.dropWhile _ = next :: later at entered
            have changed : ¬ next.Agrees before := by
              have head := List.head?_dropWhile_not (fun next : Observation α =>
                decide (next.Agrees before)) rest
              rw [entered] at head
              simpa using head
            rw [steps_cons, steps_cons, ← split, entered, changes_append_of_agrees
              (fun observation member => (repeats observation member).trans agrees.symm),
              changes_of_differs ((differs_congr agrees).mpr changed)]

theorem steps_clip_of_isVacant (empty : span.IsVacant observations) :
    ∃ step, steps (span.clip observations) = [step] ∧ step.time = span.start ∧
      step.Agrees (vacant span.start .unknown) := by
  cases events : span.observed observations with
  | nil => exact ⟨_, steps_clip_of_none events, rfl, vacant_agrees _ _ _⟩
  | cons first rest =>
      have agree := empty
      unfold IsVacant at agree
      rw [events] at agree
      exact ⟨_, steps_clip_of_agree events agree, rfl,
        agrees_moveTo.mpr (agree first List.mem_cons_self)⟩

theorem sameSteps_of_isVacant {retained : List (Observation α)} (same : span.Matches other)
    (empty : span.IsVacant observations)
    (fewer : ∀ observation ∈ other.observed retained, observation ∈ span.observed observations) :
    SameSteps (other.clip retained) (span.clip observations) := by
  have left : other.IsVacant retained := fun observation member =>
    (empty observation (fewer observation member)).trans (vacant_agrees _ _ _)
  obtain ⟨step, steps, time, agrees⟩ := steps_clip_of_isVacant empty
  obtain ⟨otherStep, otherSteps, otherTime, otherAgrees⟩ := steps_clip_of_isVacant left
  unfold SameSteps
  rw [steps, otherSteps]
  refine .cons ⟨?_, ?_⟩ .nil
  · rw [time, otherTime]
    exact beq_symm same.start
  · exact otherAgrees.trans ((vacant_agrees _ _ _).trans agrees.symm)

theorem length_steps_clip_le {retained : List (Observation α)} {first : Observation α}
    {rest : List (Observation α)}
    (kept : span.observed retained = Criteria.everyField.condenseFrom first rest)
    (comparable : ∀ observation ∈ first :: rest, observation.IsComparable) :
    (steps (span.clip retained)).length ≤
      (Criteria.everyField.condenseFrom first rest).length := by
  cases left : Criteria.everyField.condenseFrom first rest with
  | nil => exact absurd left (Criteria.everyField.condenseFrom_ne_nil first rest)
  | cons step later =>
      have member : step ∈ Criteria.everyField.condenseFrom first rest := left ▸ List.mem_cons_self
      rw [left] at kept
      rw [length_steps_clip (comparable step (Criteria.mem_condenseFrom member)) kept]
      exact length_steps_le (step :: later)

/-- If the steps are the same, nothing is dropped at the beginning of the span, unless all that
was observed there is an unknown host without anything. -/
theorem entered_of_sameSteps {retained : List (Observation α)} {first : Observation α}
    {rest : List (Observation α)} {previous : Option (Observation α)}
    (events : span.observed observations = first :: rest)
    (comparable : ∀ observation ∈ first :: rest, observation.IsComparable)
    (kept : other.observed retained =
      Criteria.everyField.condenseSorted (Criteria.entered previous (first :: rest)))
    (same : SameSteps (other.clip retained) (span.clip observations))
    (occupied : ¬ span.IsVacant observations) :
    Criteria.entered previous (first :: rest) = first :: rest ∧
      ∀ before ∈ previous, before.Differs first := by
  rcases entered_cases previous with whole | ⟨none, before, _, agree⟩ | ⟨next, later, entered, steps⟩
  · exact whole
  · refine absurd (fun observation member => ?_) occupied
    rw [none] at kept
    rw [events] at member
    rw [SameSteps, steps_clip_of_none kept, steps_clip_of_agree events agree] at same
    have matched := agrees_moveTo.mp (List.forall₂_cons.mp same).1.agrees.symm
    exact (agree observation member).trans ((agree first List.mem_cons_self).symm.trans
      (matched.trans (vacant_agrees _ _ _)))
  · have subset : ∀ observation ∈ next :: later, observation.IsComparable :=
      fun observation member =>
        comparable observation (Criteria.mem_of_mem_entered (entered ▸ member))
    -- the first step is dropped, and clipping only moves those that are left
    have length := same.length_eq
    rw [entered] at kept
    rw [length_steps_clip (comparable first List.mem_cons_self) events, steps,
      List.length_cons] at length
    have short := Nat.le_trans (length_steps_clip_le kept subset)
      (Criteria.length_condenseFrom_le next later)
    rw [length] at short
    exact absurd short (Nat.not_succ_le_self _)

theorem showsSteps_of_sameSteps {retained : List (Observation α)} {first : Observation α}
    {rest : List (Observation α)} (same : span.Matches other)
    (events : span.observed observations = first :: rest)
    (comparable : ∀ observation ∈ first :: rest, observation.IsComparable)
    (kept : other.observed retained = Criteria.everyField.condenseSorted
      (Criteria.entered (span.preceding? observations) (first :: rest)))
    (sameSteps : SameSteps (other.clip retained) (span.clip observations))
    (occupied : ¬ span.IsVacant observations) : span.ShowsSteps observations := by
  obtain ⟨whole, enters⟩ := entered_of_sameSteps events comparable kept sameSteps occupied
  rw [whole] at kept
  -- as many steps are left as there were, so none took the place of another
  have long := sameSteps.length_eq
  rw [length_steps_clip (comparable first List.mem_cons_self) events] at long
  have apart := Criteria.apart_of_length_le (long ▸ length_steps_clip_le kept comparable)
  constructor
  · rw [events]
    intro before found head member
    cases member
    exact enters before found
  · rwa [events]
  · rw [events]
    exact (sameSteps_iff_left same events
      (kept.trans (Criteria.condenseFrom_eq_steps apart)) comparable).mp sameSteps

theorem ShowsSteps.sameSteps {retained : List (Observation α)} {first : Observation α}
    {rest : List (Observation α)} (shows : span.ShowsSteps observations)
    (same : span.Matches other) (events : span.observed observations = first :: rest)
    (comparable : ∀ observation ∈ first :: rest, observation.IsComparable)
    (kept : other.observed retained = Criteria.everyField.condenseSorted
      (Criteria.entered (span.preceding? observations) (first :: rest))) :
    SameSteps (other.clip retained) (span.clip observations) := by
  obtain ⟨enters, apart, left⟩ := shows
  rw [events] at enters apart left
  have whole : Criteria.entered (span.preceding? observations) (first :: rest) = first :: rest := by
    cases preceding : span.preceding? observations with
    | none => rfl
    | some before => exact Criteria.entered_of_differs (enters before preceding first rfl) rest
  rw [whole] at kept
  exact (sameSteps_iff_left same events
    (kept.trans (Criteria.condenseFrom_eq_steps apart)) comparable).mpr left

/-- Condensing keeps the steps of a host within a span exactly if what it may drop there does
not begin or end a step. -/
theorem sameSteps_iff (ordered : span.start ≤ span.stop) (same : span.Matches other)
    (comparable : ∀ observation ∈ observations, observation.IsComparable) :
    SameSteps (other.clip (Criteria.everyField.condense observations)) (span.clip observations) ↔
      span.RetainsSteps observations := by
  have kept := observed_condense ordered comparable
  rw [observed_congr same] at kept
  by_cases empty : span.IsVacant observations
  · refine iff_of_true (sameSteps_of_isVacant same empty fun observation member => ?_) (.inl empty)
    rw [← observed_congr same] at member
    exact mem_observed_of_condense member
  · cases events : span.observed observations with
    | nil =>
        refine absurd (fun observation member => ?_) empty
        rw [events] at member
        cases member
    | cons first rest =>
        have known : ∀ observation ∈ first :: rest, observation.IsComparable :=
          fun observation member => comparable observation (mem_of_mem_observed (events ▸ member))
        rw [events] at kept
        constructor
        · intro sameSteps
          exact .inr (showsSteps_of_sameSteps same events known kept sameSteps empty)
        · rintro (vacant | shows)
          · exact absurd vacant empty
          · exact shows.sameSteps same events known kept

end Span

end HostTimeline
