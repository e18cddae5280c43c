import HostTimeline.Proofs.Number.Greatest
import HostTimeline.Proofs.Outliers

/-!
What a window is resolved to.  Only the first and the last of the observed times count
(`Window.resolve_eq_of_extent`), and each end is the one that was asked for as far as it lies between
these two (`Window.resolve_ok_iff`).  Asking for the resolved ends resolves to them again
(`Window.resolve_resolved`), also for an end of zero or less, which by itself asks for nothing.
-/

namespace HostTimeline

open OrderedScalar

variable {α : Type} [Scalar α]

namespace Scalar

/-- The lesser of two numbers; of equal ones the second counts. -/
def lesser (least value : α) : α :=
  if value ≤ least then value else least

theorem getD_filter_le (bound : α) (asked : Option α) :
    (asked.filter fun value => decide (bound ≤ value)).getD bound =
      greater bound (asked.getD bound) := by
  cases asked with
  | none => exact (ite_self bound).symm
  | some value =>
      rw [Option.filter_some, Option.getD_some, greater]
      by_cases reached : bound ≤ value <;> simp [reached]

theorem getD_filter_ge (bound : α) (asked : Option α) :
    (asked.filter fun value => decide (value ≤ bound)).getD bound =
      lesser bound (asked.getD bound) := by
  cases asked with
  | none => exact (ite_self bound).symm
  | some value =>
      rw [Option.filter_some, Option.getD_some, lesser]
      by_cases reached : value ≤ bound <;> simp [reached]

theorem greater_cases (bound value : α) :
    greater bound value = bound ∨ greater bound value = value := by
  unfold greater
  split
  · exact .inr rfl
  · exact .inl rfl

theorem lesser_cases (bound value : α) :
    lesser bound value = bound ∨ lesser bound value = value := by
  unfold lesser
  split
  · exact .inr rfl
  · exact .inl rfl

theorem greater_of_le {bound value : α} (le : bound ≤ value) : greater bound value = value :=
  if_pos le

theorem lesser_of_le {bound value : α} (le : value ≤ bound) : lesser bound value = value :=
  if_pos le

theorem lesser_le {least : α} (comparable : least ≤ least) (value : α) :
    lesser least value ≤ least := by
  unfold lesser
  split
  next le => exact le
  · exact comparable

theorem alike_getD (asked : Option α) {bound other : α} (bounds : Alike bound other) :
    Alike (asked.getD bound) (asked.getD other) := by
  cases asked with
  | none => exact bounds
  | some value => exact .inl rfl

end Scalar

namespace Window

/-- Outcomes of a resolution with equal numbers in them. -/
inductive AlikeOutcome :
    Except (WindowError α) (Span α) → Except (WindowError α) (Span α) → Prop where
  | resolved {span other : Span α} (start : Scalar.Alike span.start other.start)
      (stop : Scalar.Alike span.stop other.stop) : AlikeOutcome (.ok span) (.ok other)
  | incomplete : AlikeOutcome (.error .incomplete) (.error .incomplete)
  | empty {start stop other otherStop : α} (starts : Scalar.Alike start other)
      (stops : Scalar.Alike stop otherStop) :
      AlikeOutcome (.error (.empty start stop)) (.error (.empty other otherStop))

/-- Resolving a window narrows the stretch from the first to the last observed time, whatever was
observed in between, to what the window asks for, and leaves what has been narrowed already. -/
structure IsProjection (window : Window α) (times : List α) : Prop where
  observed : times ≠ [] → ∃ extent : Span α, extent.IsExtent times ∧
    ∀ time ∈ times, extent.start ≤ time ∧ time ≤ extent.stop
  same : ∀ extent : Span α, ∀ others, extent.IsExtent times → extent.IsExtent others →
    window.resolve others = window.resolve times
  subset : ∀ extent : Span α, ∀ others, extent.IsExtent times → extent.start ∈ others →
    extent.stop ∈ others → others ⊆ times → window.resolve others = window.resolve times
  alike : ∀ extent other : Span α, ∀ others, extent.IsExtent times → other.IsExtent others →
    (extent.start == other.start) = true → (extent.stop == other.stop) = true →
      AlikeOutcome (window.resolve times) (window.resolve others)
  several : ∀ extent : Span α, extent.IsExtent times → extent.start < extent.stop →
    ∀ span, window.resolve times = .ok span ↔
      span.start = Scalar.greater extent.start (window.earliest.getD extent.start) ∧
        span.stop = Scalar.lesser extent.stop (window.latestAsked.getD extent.stop) ∧
        span.start ≤ span.stop
  instant : ∀ extent : Span α, extent.IsExtent times → (extent.start == extent.stop) = true →
    window.resolve times = .ok
      { start := extent.start
        stop := Scalar.greater extent.stop (window.latestAsked.getD extent.stop) }
  unobserved : times = [] → ∀ span, window.resolve times = .ok span ↔
    window.earliest = some span.start ∧ window.latest = some span.stop ∧
      Scalar.zero < span.stop ∧ span.start ≤ span.stop
  ordered : ∀ span, window.resolve times = .ok span → span.start ≤ span.stop
  settled : ∀ span, window.resolve times = .ok span → span.window.resolve times = .ok span

/-- A resolved end that was not asked for is the one observed. -/
theorem eq_or_pos_of_latestAsked {window : Window α} {bound stop : α}
    (either : stop = bound ∨ stop = window.latestAsked.getD bound) :
    stop = bound ∨ Scalar.zero < stop := by
  rcases either with same | same
  · exact .inl same
  · cases asked : window.latestAsked with
    | none =>
        rw [asked] at same
        exact .inl same
    | some latest =>
        rw [asked, Option.getD_some] at same
        rw [same]
        exact .inr (of_decide_eq_true (Option.filter_eq_some_iff.mp asked).2)

/-- Asking for a stop of zero or less asks for nothing, and then the observed end counts. -/
theorem getD_latestAsked_window {span : Span α} {bound : α}
    (either : span.stop = bound ∨ Scalar.zero < span.stop) :
    span.window.latestAsked.getD bound = span.stop := by
  rw [latestAsked, Span.window, Option.filter_some]
  rcases either with same | positive
  · rw [same]
    split <;> rfl
  · rw [if_pos (decide_eq_true positive), Option.getD_some]

theorem resolve_nil_ok_iff {window : Window α} {span : Span α} :
    window.resolve [] = .ok span ↔ window.earliest = some span.start ∧
      window.latest = some span.stop ∧ Scalar.zero < span.stop ∧ ¬ span.stop < span.start := by
  have asked_iff : window.latestAsked = some span.stop ↔
      window.latest = some span.stop ∧ Scalar.zero < span.stop := by
    rw [latestAsked, Option.filter_eq_some_iff, decide_eq_true_eq]
  constructor
  · intro resolved
    obtain ⟨earliest, latest, ordered⟩ := ends_of_unobserved resolved
    exact ⟨earliest, (asked_iff.mp latest).1, (asked_iff.mp latest).2, ordered⟩
  · rintro ⟨earliest, latest, positive, ordered⟩
    have unobserved : Span.covering? ([] : List α) = none := rfl
    unfold resolve
    simp only [unobserved, earliest, asked_iff.mpr ⟨latest, positive⟩]
    exact if_neg ordered

end Window

section Order

variable [OrderedScalar α]

namespace Scalar

theorem alike_greater {bound other value next : α} (bounds : Alike bound other)
    (values : Alike value next) : Alike (greater bound value) (greater other next) := by
  unfold greater
  by_cases le : bound ≤ value
  · rwa [if_pos le, if_pos ((le_congr bounds values).mp le)]
  · rwa [if_neg le, if_neg (mt (le_congr bounds values).mpr le)]

theorem alike_lesser {bound other value next : α} (bounds : Alike bound other)
    (values : Alike value next) : Alike (lesser bound value) (lesser other next) := by
  unfold lesser
  by_cases le : value ≤ bound
  · rwa [if_pos le, if_pos ((le_congr values bounds).mp le)]
  · rwa [if_neg le, if_neg (mt (le_congr values bounds).mpr le)]

end Scalar

theorem Span.ofEnds_ok_iff {start stop : α} (startComparable : start ≤ start)
    (stopComparable : stop ≤ stop) {span : Span α} :
    Span.ofEnds start stop = .ok span ↔ span = { start, stop } ∧ start ≤ stop := by
  constructor
  · intro made
    obtain ⟨same, notLess⟩ := Span.ofEnds_eq made
    exact ⟨same, le_of_not_lt stopComparable startComparable notLess⟩
  · rintro ⟨rfl, ordered⟩
    exact if_neg fun less => not_le_of_lt less ordered

theorem Span.alike_ofEnds {start stop other otherStop : α} (starts : Scalar.Alike start other)
    (stops : Scalar.Alike stop otherStop) :
    Window.AlikeOutcome (Span.ofEnds start stop) (Span.ofEnds other otherStop) := by
  unfold Span.ofEnds
  by_cases less : stop < start
  · rw [if_pos less, if_pos ((lt_congr stops starts).mp less)]
    exact .empty starts stops
  · rw [if_neg less, if_neg (mt (lt_congr stops starts).mpr less)]
    exact .resolved starts stops

end Order

variable [LinearScalar α]

namespace Window

variable {times : List α} {extent : Span α}

section Observed

variable (isExtent : extent.IsExtent times) (window : Window α)
include isExtent

/-- Of what was observed only the first and the last time count. -/
theorem resolve_eq_of_extent {others : List α} (otherExtent : extent.IsExtent others) :
    window.resolve others = window.resolve times := by
  unfold resolve
  rw [Span.covering?_of_isExtent isExtent, Span.covering?_of_isExtent otherExtent]

theorem resolve_of_several (less : extent.start < extent.stop) :
    window.resolve times =
      Span.ofEnds (Scalar.greater extent.start (window.earliest.getD extent.start))
        (Scalar.lesser extent.stop (window.latestAsked.getD extent.stop)) := by
  unfold resolve
  simp only [Span.covering?_of_isExtent isExtent]
  rw [if_neg (not_beq_of_lt less), Scalar.getD_filter_le, Scalar.getD_filter_ge]

theorem resolve_of_instant (same : (extent.start == extent.stop) = true) :
    window.resolve times = .ok
      { start := extent.start
        stop := Scalar.greater extent.stop (window.latestAsked.getD extent.stop) } := by
  have stopComparable := (le_self_of_le (le_of_beq same)).2
  have ordered := le_trans (le_of_beq same)
    (le_greater stopComparable (window.latestAsked.getD extent.stop)).1
  unfold resolve
  simp only [Span.covering?_of_isExtent isExtent]
  rw [if_pos same, Scalar.getD_filter_le]
  exact if_neg fun less => not_le_of_lt less ordered

theorem resolve_ok_iff (less : extent.start < extent.stop) {span : Span α} :
    window.resolve times = .ok span ↔
      span.start = Scalar.greater extent.start (window.earliest.getD extent.start) ∧
        span.stop = Scalar.lesser extent.stop (window.latestAsked.getD extent.stop) ∧
        span.start ≤ span.stop := by
  obtain ⟨startComparable, stopComparable⟩ := le_self_of_le (le_of_lt less)
  rw [resolve_of_several isExtent window less, Span.ofEnds_ok_iff
    (le_self_of_le (le_greater startComparable _).1).2
    (le_self_of_le (Scalar.lesser_le stopComparable _)).1]
  constructor
  · rintro ⟨rfl, ordered⟩
    exact ⟨rfl, rfl, ordered⟩
  · rintro ⟨start, stop, ordered⟩
    rw [← start, ← stop]
    exact ⟨rfl, ordered⟩

/-- What the first and the last time are equal to is all that counts. -/
theorem alike_resolve {others : List α} {other : Span α} (otherExtent : other.IsExtent others)
    (starts : (extent.start == other.start) = true) (stops : (extent.stop == other.stop) = true) :
    AlikeOutcome (window.resolve times) (window.resolve others) := by
  have ordered : extent.start ≤ extent.stop :=
    le_of_precedes (le_self_of_le (le_of_beq starts)).1 (le_self_of_le (le_of_beq stops)).1
      (isExtent.encloses _ isExtent.stop_mem).1
  have alikeStarts : Scalar.Alike extent.start other.start := .inr starts
  have alikeStops : Scalar.Alike extent.stop other.stop := .inr stops
  have latest := Scalar.alike_getD window.latestAsked alikeStops
  rcases lt_or_beq_of_le ordered with less | same
  · rw [resolve_of_several isExtent window less,
      resolve_of_several otherExtent window ((lt_congr alikeStarts alikeStops).mp less)]
    exact Span.alike_ofEnds
      (Scalar.alike_greater alikeStarts (Scalar.alike_getD window.earliest alikeStarts))
      (Scalar.alike_lesser alikeStops latest)
  · rw [resolve_of_instant isExtent window same,
      resolve_of_instant otherExtent window (beq_congr alikeStarts alikeStops ▸ same)]
    exact .resolved alikeStarts (Scalar.alike_greater alikeStops latest)

end Observed

/-- Asking for the resolved ends resolves to them again. -/
theorem resolve_resolved (comparable : ∀ time ∈ times, time ≤ time) {window : Window α}
    {span : Span α} (resolved : window.resolve times = .ok span) :
    span.window.resolve times = .ok span := by
  by_cases nothing : times = []
  · subst nothing
    exact resolve_window_nil resolved
  obtain ⟨time, member⟩ := List.exists_mem_of_ne_nil times nothing
  obtain ⟨extent, -, isExtent⟩ := Span.exists_covering? member
  obtain ⟨startComparable, ordered⟩ := TimeGrid.within_extent isExtent comparable isExtent.start_mem
  have stopComparable := (le_self_of_le ordered).2
  rcases lt_or_beq_of_le ordered with less | same
  · obtain ⟨start, stop, narrow⟩ := (resolve_ok_iff isExtent window less).mp resolved
    have latest : span.window.latestAsked.getD extent.stop = span.stop :=
      getD_latestAsked_window (eq_or_pos_of_latestAsked (stop ▸ Scalar.lesser_cases _ _))
    refine (resolve_ok_iff isExtent _ less).mpr ⟨?_, ?_, narrow⟩
    · exact (Scalar.greater_of_le (start ▸ (le_greater startComparable _).1)).symm
    · rw [latest]
      exact (Scalar.lesser_of_le (stop ▸ Scalar.lesser_le stopComparable _)).symm
  · rw [resolve_of_instant isExtent window same, Except.ok.injEq] at resolved
    have stop : span.stop = Scalar.greater extent.stop (window.latestAsked.getD extent.stop) := by
      rw [← resolved]
    have latest : span.window.latestAsked.getD extent.stop = span.stop :=
      getD_latestAsked_window (eq_or_pos_of_latestAsked (stop ▸ Scalar.greater_cases _ _))
    rw [resolve_of_instant isExtent _ same, latest,
      Scalar.greater_of_le (stop ▸ (le_greater stopComparable _).1), stop, resolved]

theorem isProjection_of_comparable {window : Window α} (windowComparable : window.IsComparable)
    (comparable : ∀ time ∈ times, time ≤ time) : window.IsProjection times where
  observed nonempty := by
    obtain ⟨time, member⟩ := List.exists_mem_of_ne_nil times nonempty
    obtain ⟨extent, -, isExtent⟩ := Span.exists_covering? member
    exact ⟨extent, isExtent, fun _ => TimeGrid.within_extent isExtent comparable⟩
  same _ _ isExtent := resolve_eq_of_extent isExtent window
  subset _ _ isExtent start stop subset := resolve_eq_of_extent isExtent window
    ⟨start, stop, fun time member => isExtent.encloses time (subset member)⟩
  alike _ _ _ isExtent otherExtent := alike_resolve isExtent window otherExtent
  several _ isExtent less _ := resolve_ok_iff isExtent window less
  instant _ isExtent same := resolve_of_instant isExtent window same
  unobserved := by
    rintro rfl span
    rw [resolve_nil_ok_iff]
    refine and_congr_right fun earliest => and_congr_right fun latest => and_congr_right fun _ => ?_
    exact ⟨le_of_not_lt (windowComparable.latest _ latest) (windowComparable.earliest _ earliest),
      fun ordered less => not_le_of_lt less ordered⟩
  ordered _ resolved := resolve_start_le_stop windowComparable comparable resolved
  settled _ resolved := resolve_resolved comparable resolved

theorem isProjection {window : Window Float} {times : List Float} (windowFinite : window.IsFinite)
    (timesFinite : ∀ time ∈ times, time.isFinite = true) : window.IsProjection times :=
  isProjection_of_comparable windowFinite.isComparable
    fun time member => Binary64.le_self_of_isFinite (timesFinite time member)

/-- All times are below zero, so the resolved stop asks for nothing by itself. -/
theorem isProjection_belowZero :
    Window.resolve { earliest := some (-7.0), latest := some 3.0 } [-2.0, -9.0, -5.0, -9.0] =
        .ok { start := -7.0, stop := -2.0 } ∧
      Window.IsProjection { earliest := some (-7.0), latest := some 3.0 }
        [-2.0, -9.0, -5.0, -9.0] :=
  ⟨rfl, isProjection ⟨by decide +kernel, by decide +kernel⟩ (by decide +kernel)⟩

end Window

end HostTimeline
