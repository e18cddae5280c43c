import HostTimeline.Proofs.Number.Binary64
import HostTimeline.Proofs.Runs

/-!
Samples above the limit.  A sample is refused before the meter is touched, so that a measurement
that goes on after refusals is that of the samples within the limit, whatever the meter has seen
before (`Meter.foldl_offer`).  A measurement of a whole curve fails on the first sample that is
refused (`passesOverRefused`).
-/

namespace HostTimeline.Load

variable {α : Type} [Scalar α]

/-- Why a sample above the limit is refused. -/
def Rule.refusal (rule : Rule α) (sample : Sample α) : Overload α :=
  { value := sample.value, time := sample.time, limit := rule.limit }

/-- The samples up to the limit. -/
def Rule.withinLimit (rule : Rule α) (samples : List (Sample α)) : List (Sample α) :=
  samples.filter fun sample => decide (sample.value ≤ rule.limit)

/-- A meter that is given all samples measures those within the limit, and the measurement of the
whole curve fails exactly if there is another one, for the reason the first of them is refused. -/
structure PassesOverRefused (rule : Rule α) (samples : List (Sample α)) : Prop where
  unmoved : ∀ (meter : Meter α) (sample : Sample α), rule.limit < sample.value →
    (Meter.record rule sample).run meter = .error (rule.refusal sample) meter
  measured : ofSamples rule (rule.withinLimit samples) =
    .ok ((samples.foldl (Meter.offer rule) Meter.fresh).finish rule)
  fails_iff : (∃ overload, ofSamples rule samples = .error overload) ↔
    ∃ sample ∈ samples, rule.limit < sample.value
  reason_iff : ∀ overload, ofSamples rule samples = .error overload ↔
    ∃ sample, IsFirst (fun sample => rule.limit < sample.value) samples sample ∧
      overload = rule.refusal sample

namespace Meter

variable {rule : Rule α} {sample : Sample α}

theorem offer_of_lt (above : rule.limit < sample.value) (meter : Meter α) :
    meter.offer rule sample = meter := by
  rw [offer, record_of_lt above]

theorem offer_of_not_lt (within : ¬ rule.limit < sample.value) (meter : Meter α) :
    meter.offer rule sample = meter.accept rule sample := by
  rw [offer, record_of_not_lt within]

variable [OrderedScalar α]

variable {samples : List (Sample α)} (limited : rule.limit ≤ rule.limit)
  (valued : ∀ sample ∈ samples, sample.value ≤ sample.value)
include limited valued

/-- Refused samples may come before, between and behind the others. -/
theorem foldl_offer (meter : Meter α) :
    samples.foldl (offer rule) meter =
      (rule.withinLimit samples).foldl (accept rule) meter := by
  unfold Rule.withinLimit
  induction samples generalizing meter with
  | nil => rfl
  | cons sample rest ih =>
      obtain ⟨here, later⟩ := List.forall_mem_cons.mp valued
      rw [List.foldl_cons, ih later]
      by_cases within : sample.value ≤ rule.limit
      · rw [offer_of_not_lt fun above => OrderedScalar.not_le_of_lt above within,
          List.filter_cons_of_pos (by simpa using within), List.foldl_cons]
      · have above := OrderedScalar.lt_of_not_le here limited within
        rw [offer_of_lt above, List.filter_cons_of_neg (by simpa using within)]

end Meter

section Curve

variable {rule : Rule α} {samples : List (Sample α)}

theorem fails_iff : (∃ overload, ofSamples rule samples = .error overload) ↔
    ∃ sample ∈ samples, rule.limit < sample.value := by
  constructor
  · rintro ⟨overload, failed⟩
    obtain ⟨sample, first, _⟩ := ofSamples_error_iff.mp failed
    exact ⟨sample, first.passes⟩
  · rintro ⟨sample, member, above⟩
    obtain ⟨first, isFirst⟩ : ∃ first,
        IsFirst (fun sample => rule.limit < sample.value) samples first :=
      IsFirst.exists_of_mem member above
    exact ⟨rule.refusal first, ofSamples_error_iff.mpr ⟨first, isFirst, rfl⟩⟩

variable [OrderedScalar α]

theorem not_lt_of_mem_withinLimit {sample : Sample α} (member : sample ∈ rule.withinLimit samples) :
    ¬ rule.limit < sample.value := by
  have within := of_decide_eq_true (List.mem_filter.mp member).2
  exact fun above => OrderedScalar.not_le_of_lt above within

theorem passesOverRefused_of_comparable (limited : rule.limit ≤ rule.limit)
    (valued : ∀ sample ∈ samples, sample.value ≤ sample.value) :
    PassesOverRefused rule samples where
  unmoved meter _ above := Meter.record_of_lt above meter
  measured := by
    rw [Meter.foldl_offer limited valued]
    exact ofSamples_of_le fun _ member => not_lt_of_mem_withinLimit member
  fails_iff := fails_iff
  reason_iff _ := ofSamples_error_iff

end Curve

theorem passesOverRefused {rule : Rule Float} {samples : List (Sample Float)}
    (limited : rule.limit.isNaN = false)
    (valued : ∀ sample ∈ samples, sample.value.isNaN = false) : PassesOverRefused rule samples :=
  passesOverRefused_of_comparable (Binary64.le_self_of_number limited)
    fun sample member => Binary64.le_self_of_number (valued sample member)

/-- Samples that are too large before the first run, within a run and at the end. -/
def partlyRefused : List (Sample Float) :=
  [{ time := 0.0, value := 9.0, state := .used }, { time := 1.0, value := 4.0, state := .used },
    { time := 2.0, value := 8.5, state := .off }, { time := 3.0, value := 4.0, state := .used },
    { time := 5.0, value := 0.0, state := .idle }, { time := 7.0, value := 100.0, state := .idle }]

theorem passesOverRefused_partlyRefused :
    (Rule.bySteps 8.0 PowerState.isAvailable).limit.isNaN = false ∧
      (∀ sample ∈ partlyRefused, sample.value.isNaN = false) ∧
      PassesOverRefused (.bySteps 8.0 PowerState.isAvailable) partlyRefused ∧
      ((Rule.bySteps 8.0 PowerState.isAvailable).withinLimit partlyRefused).map Sample.time =
        [1.0, 3.0, 5.0] := by
  have limited : (Rule.bySteps (8.0 : Float) PowerState.isAvailable).limit.isNaN = false := by
    decide +kernel
  have valued : ∀ sample ∈ partlyRefused, sample.value.isNaN = false := by decide +kernel
  exact ⟨limited, valued, passesOverRefused limited valued, by decide +kernel⟩

end HostTimeline.Load
