import HostTimeline.Track
import HostTimeline.Proofs.Except

/-!
How a load is measured, one sample at a time.  A sample begins the first run, goes on with the
current one, or ends it and begins the next; the first one above the limit ends the measurement
(`ofSamples_error_iff`).
-/

namespace HostTimeline.Load

variable {α : Type} [Scalar α]

/-- A run ends where the value or the state changes. -/
def Rule.bySteps (limit : α) (accepts : PowerState → Bool) : Rule α :=
  { limit, same := sameValueAndState, accepts }

theorem sameValueAndState_iff {left right : Sample α} : sameValueAndState left right = true ↔
    (left.value == right.value) = true ∧ left.state = right.state := by
  simp [sameValueAndState]

namespace Meter

section Accept

variable {rule : Rule α} (meter : Meter α) {run sample : Sample α}

theorem accept_of_none (none : meter.run = none) : meter.accept rule sample =
    { meter with
      run := some sample
      start := meter.start <|> some sample.time
      stop := sample.time } := by
  simp only [accept, none]

theorem accept_of_same (going : meter.run = some run) (same : rule.same run sample = true) :
    meter.accept rule sample =
      { meter with
        start := meter.start <|> some sample.time
        stop := sample.time } := by
  simp only [accept, going, same, if_true]

theorem accept_of_changed (going : meter.run = some run)
    (changed : rule.same run sample = false) : meter.accept rule sample =
      { ({ meter with start := meter.start <|> some sample.time } : Meter α).close
          rule run sample.time with
        run := some sample
        stop := sample.time } := by
  simp only [accept, going, changed, Bool.false_eq_true, if_false]

theorem start_accept (rule : Rule α) (sample : Sample α) :
    (meter.accept rule sample).start = (meter.start <|> some sample.time) := by
  cases going : meter.run with
  | none => rw [accept_of_none meter going]
  | some run =>
      cases same : rule.same run sample with
      | true => rw [accept_of_same meter going same]
      | false =>
          rw [accept_of_changed meter going same]
          simp only [close]
          split <;> rfl

end Accept

variable {rule : Rule α}

def stoppedAt (meter : Meter α) (time : α) : Meter α :=
  { meter with stop := time }

@[simp]
theorem accept_stoppedAt (rule : Rule α) (meter : Meter α) (time : α) (sample : Sample α) :
    (meter.stoppedAt time).accept rule sample = meter.accept rule sample := by
  cases going : meter.run with
  | none =>
      rw [accept_of_none meter going, accept_of_none (meter.stoppedAt time) going]
      rfl
  | some run =>
      cases same : rule.same run sample with
      | true =>
          rw [accept_of_same meter going same, accept_of_same (meter.stoppedAt time) going same]
          rfl
      | false =>
          rw [accept_of_changed meter going same,
            accept_of_changed (meter.stoppedAt time) going same]
          simp only [close, stoppedAt]
          split <;> rfl

/-- Whether the current run is one of samples like the given one. -/
structure IsOf (rule : Rule α) (meter : Meter α) (sample : Sample α) : Prop where
  run : ∃ run, meter.run = some run ∧ rule.same run sample = true
  start : ∃ start, meter.start = some start

theorem isOf_accept (meter : Meter α) {next : Sample α} (own : rule.same next next = true) :
    (meter.accept rule next).IsOf rule next := by
  have begun : ∃ start, (meter.accept rule next).start = some start := by
    rw [start_accept]
    cases meter.start <;> exact ⟨_, rfl⟩
  refine ⟨?_, begun⟩
  cases going : meter.run with
  | none => exact ⟨next, by rw [accept_of_none meter going], own⟩
  | some run =>
      cases same : rule.same run next with
      | true => exact ⟨run, by rw [accept_of_same meter going same, going], same⟩
      | false => exact ⟨next, by rw [accept_of_changed meter going same], own⟩

/-- A sample like those of the current run moves nothing but the end of the run. -/
theorem accept_of_isOf {meter : Meter α} {kept next : Sample α} (here : meter.IsOf rule kept)
    (alike : ∀ run, rule.same run kept = true → rule.same run next = true) (time : α) :
    (meter.accept rule next).stoppedAt time = meter.stoppedAt time ∧
      (meter.accept rule next).IsOf rule kept := by
  obtain ⟨⟨run, going, same⟩, start, begun⟩ := here
  rw [accept_of_same meter going (alike run same)]
  obtain ⟨current, begin, stop, area, acceptedArea, acceptedTime, histogram⟩ := meter
  simp only at going begun
  subst going begun
  exact ⟨rfl, ⟨run, rfl, same⟩, ⟨start, rfl⟩⟩

theorem start_foldl {meter : Meter α} {start : α} (begun : meter.start = some start)
    (samples : List (Sample α)) : (samples.foldl (accept rule) meter).start = some start := by
  induction samples generalizing meter with
  | nil => exact begun
  | cons sample rest ih =>
      refine ih ?_
      rw [start_accept, begun]
      rfl

theorem stop_foldl (rule : Rule α) (samples : List (Sample α)) (meter : Meter α) :
    (samples.foldl (accept rule) meter).stop =
      (samples.getLast?.map Sample.time).getD meter.stop := by
  rcases List.eq_nil_or_concat samples with rfl | ⟨earlier, last, rfl⟩
  · rfl
  · rw [List.concat_eq_append, List.foldl_append, List.getLast?_concat]
    rfl

def ended (rule : Rule α) (meter : Meter α) : Meter α :=
  match meter.run with
  | none => meter
  | some run => meter.close rule run meter.stop

theorem ended_eq {meter : Meter α} {run : Sample α} (going : meter.run = some run) :
    meter.ended rule = meter.close rule run meter.stop := by
  simp only [ended, going]

section Record

variable {sample : Sample α} {samples : List (Sample α)}

theorem record_of_lt (above : rule.limit < sample.value) (meter : Meter α) :
    (record rule sample).run meter =
      .error { value := sample.value, time := sample.time, limit := rule.limit } meter := by
  unfold record
  rw [if_pos above]
  rfl

theorem record_of_not_lt (within : ¬ rule.limit < sample.value) (meter : Meter α) :
    (record rule sample).run meter = .ok () (meter.accept rule sample) := by
  unfold record
  rw [if_neg within]
  rfl

/-- What came of samples, without the meter that a refusal leaves. -/
def outcome : EStateM.Result (Overload α) (Meter α) Unit → Except (Overload α) (Meter α)
  | .ok _ meter => .ok meter
  | .error overload _ => .error overload

theorem outcome_recordAll_cons (rule : Rule α) (sample : Sample α) (rest : List (Sample α))
    (meter : Meter α) : outcome ((recordAll rule (sample :: rest)).run meter) =
      (outcome ((record rule sample).run meter)).bind fun next =>
        outcome ((recordAll rule rest).run next) := by
  have step : (recordAll rule (sample :: rest)).run meter =
      EStateM.bind (record rule sample) (fun _ => recordAll rule rest) meter := rfl
  rw [step]
  unfold EStateM.bind EStateM.run
  cases record rule sample meter with
  | ok _ next => rfl
  | error overload left => rfl

theorem recordAll_of_le (within : ∀ sample ∈ samples, ¬ rule.limit < sample.value)
    (meter : Meter α) :
    outcome ((recordAll rule samples).run meter) = .ok (samples.foldl (accept rule) meter) := by
  induction samples generalizing meter with
  | nil => rfl
  | cons sample rest ih =>
      obtain ⟨here, later⟩ := List.forall_mem_cons.mp within
      rw [outcome_recordAll_cons, record_of_not_lt here, List.foldl_cons]
      exact ih later (meter.accept rule sample)

theorem recordAll_error_iff {meter : Meter α} {overload : Overload α} :
    outcome ((recordAll rule samples).run meter) = .error overload ↔
      ∃ sample, IsFirst (fun sample => rule.limit < sample.value) samples sample ∧
        overload = { value := sample.value, time := sample.time, limit := rule.limit } := by
  induction samples generalizing meter with
  | nil =>
      constructor
      · intro failed
        cases failed
      · rintro ⟨_, first, _⟩
        cases first
  | cons sample rest ih =>
      rw [outcome_recordAll_cons]
      by_cases above : rule.limit < sample.value
      · rw [record_of_lt above]
        constructor
        · intro failed
          cases failed
          refine ⟨sample, .here ?_ rest, rfl⟩
          exact above
        · rintro ⟨other, first, rfl⟩
          cases first with
          | here => rfl
          | later fails => exact absurd above fails
      · rw [record_of_not_lt above]
        refine Iff.trans ih ?_
        constructor
        · rintro ⟨other, first, same⟩
          exact ⟨other, .later above first, same⟩
        · rintro ⟨other, first, same⟩
          cases first with
          | here passes => exact absurd passes above
          | later _ first => exact ⟨other, first, same⟩

theorem recordAll_ok {meter result : Meter α}
    (done : outcome ((recordAll rule samples).run meter) = .ok result) :
    result = samples.foldl (accept rule) meter := by
  have within : ∀ sample ∈ samples, ¬ rule.limit < sample.value := by
    intro sample member above
    obtain ⟨first, found⟩ : ∃ first,
        IsFirst (fun sample => rule.limit < sample.value) samples first :=
      IsFirst.exists_of_mem member above
    rw [recordAll_error_iff.mpr ⟨first, found, rfl⟩] at done
    cases done
  rw [recordAll_of_le within] at done
  exact (Except.ok.inj done).symm

end Record

end Meter

variable {rule : Rule α} {samples : List (Sample α)}

theorem ofSamples_eq (rule : Rule α) (samples : List (Sample α)) : ofSamples rule samples =
    (Meter.outcome ((Meter.recordAll rule samples).run Meter.fresh)).map (Meter.finish rule) := by
  unfold ofSamples
  cases (Meter.recordAll rule samples).run Meter.fresh with
  | ok _ meter => rfl
  | error overload left => rfl

theorem ofSamples_ok {load : Load α} (done : ofSamples rule samples = .ok load) :
    load = (samples.foldl (Meter.accept rule) Meter.fresh).finish rule := by
  rw [ofSamples_eq] at done
  cases recorded : Meter.outcome ((Meter.recordAll rule samples).run Meter.fresh) with
  | error overload =>
      rw [recorded] at done
      cases done
  | ok meter =>
      rw [recorded] at done
      cases done
      rw [Meter.recordAll_ok recorded]

theorem ofSamples_of_le (within : ∀ sample ∈ samples, ¬ rule.limit < sample.value) :
    ofSamples rule samples = .ok ((samples.foldl (Meter.accept rule) Meter.fresh).finish rule) := by
  rw [ofSamples_eq, Meter.recordAll_of_le within]
  rfl

theorem ofSamples_error_iff_recordAll {overload : Overload α} :
    ofSamples rule samples = .error overload ↔
      Meter.outcome ((Meter.recordAll rule samples).run Meter.fresh) = .error overload := by
  rw [ofSamples_eq]
  cases Meter.outcome ((Meter.recordAll rule samples).run Meter.fresh) with
  | error other => simp only [Except.map, Except.error.injEq]
  | ok meter => simp only [Except.map, reduceCtorEq]

theorem ofSamples_error_iff {overload : Overload α} : ofSamples rule samples = .error overload ↔
    ∃ sample, IsFirst (fun sample => rule.limit < sample.value) samples sample ∧
      overload = { value := sample.value, time := sample.time, limit := rule.limit } :=
  ofSamples_error_iff_recordAll.trans Meter.recordAll_error_iff

end HostTimeline.Load
