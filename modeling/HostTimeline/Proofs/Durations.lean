import HostTimeline.Window
import HostTimeline.Proofs.Integral
import HostTimeline.Proofs.Occupancy

/-!
The stays of a host in exact arithmetic.  Together they last as long as the host was observed
(`Occupancy.covers_ofObservations`), and so their percentages add up to a hundred, but for what
rounding each of them takes away or adds.
-/

namespace HostTimeline

section Rounding

variable {value : Rat}

theorem roundRational_of_nonneg (nonneg : 0 ≤ value) :
    roundRational value = (⌊value + 1 / 2⌋ : Int) :=
  if_pos nonneg

theorem abs_roundRational_sub_le (nonneg : 0 ≤ value) : |roundRational value - value| ≤ 1 / 2 := by
  have below := Int.floor_le (value + 1 / 2)
  have above := Int.lt_floor_add_one (value + 1 / 2)
  rw [roundRational_of_nonneg nonneg, abs_le]
  constructor <;> linarith

theorem roundRational_nonneg (nonneg : 0 ≤ value) : 0 ≤ roundRational value := by
  have floored : 0 ≤ ⌊value + 1 / 2⌋ := Int.floor_nonneg.mpr (by linarith)
  rw [roundRational_of_nonneg nonneg]
  exact_mod_cast floored

theorem roundRational_le (nonneg : 0 ≤ value) {bound : Int} (le : value ≤ bound) :
    roundRational value ≤ bound := by
  have floored : ⌊value + 1 / 2⌋ < bound + 1 := by
    rw [Int.floor_lt]
    push_cast
    linarith
  rw [roundRational_of_nonneg nonneg]
  exact_mod_cast Int.lt_add_one_iff.mp floored

end Rounding

/-- Sums of values that are each close by differ by no more than the differences together. -/
theorem abs_sum_sub_le {κ : Type} {value other : κ → Rat} {reach : Rat}
    (close : ∀ key, |value key - other key| ≤ reach) (keys : List κ) :
    |(keys.map value).sum - (keys.map other).sum| ≤ keys.length * reach := by
  induction keys with
  | nil => simp
  | cons key keys ih =>
      have here := abs_le.mp (close key)
      have later := abs_le.mp ih
      rw [abs_le]
      simp only [List.map_cons, List.sum_cons, List.length_cons]
      push_cast
      constructor <;> linarith

namespace Occupancy

theorem percentage_none_iff {part whole : Rat} : percentage part whole = none ↔ whole ≤ 0 := by
  have zero : (Scalar.zero : Rat) = 0 := rfl
  simp [percentage, zero]

theorem exists_percentage {part whole : Rat} (positive : 0 < whole) (nonneg : 0 ≤ part)
    (le : part ≤ whole) : ∃ percent, percentage part whole = some percent ∧
      0 ≤ percent ∧ percent ≤ 100 ∧ |percent - 100 * part / whole| ≤ 1 / 20 := by
  have permille : 0 ≤ 1000 * part / whole := by positivity
  have whole_le : 1000 * part / whole ≤ (1000 : Int) := by
    rw [div_le_iff₀ positive]
    push_cast
    linarith
  have rounded := abs_le.mp (abs_roundRational_sub_le permille)
  have low := roundRational_nonneg permille
  have high := roundRational_le permille whole_le
  -- What is rounded to an integer is ten times the percentage.
  have scaled : 1000 * part / whole = 10 * (100 * part / whole) := by ring
  rw [scaled] at rounded
  refine ⟨roundRational (1000 * part / whole) / 10, if_pos positive, by positivity, ?_, ?_⟩
  · push_cast at high
    linarith
  · rw [scaled, abs_le]
    constructor <;> linarith

/-- Each percentage is off by at most a twentieth, so those of all states are by nine. -/
theorem exists_percentages {part : PowerState → Rat} {whole : Rat} (positive : 0 < whole)
    (nonneg : ∀ state, 0 ≤ part state) (sum : (PowerState.all.map part).sum = whole) :
    ∃ percent : PowerState → Rat,
      (∀ state, percentage (part state) whole = some (percent state) ∧
        0 ≤ percent state ∧ percent state ≤ 100) ∧
      |(PowerState.all.map percent).sum - 100| ≤ 9 / 20 := by
  have within (state : PowerState) : part state ≤ whole := by
    rw [← sum]
    refine List.single_le_sum ?_ _ (List.mem_map_of_mem (PowerState.mem_all state))
    intro value member
    obtain ⟨other, _, rfl⟩ := List.mem_map.mp member
    exact nonneg other
  choose percent found low high close using fun state =>
    exists_percentage positive (nonneg state) (within state)
  have exact : (PowerState.all.map fun state => 100 * part state / whole).sum = 100 := by
    simp only [mul_div_right_comm, List.sum_map_mul_left, sum]
    field_simp
  have off := abs_sum_sub_le close PowerState.all
  rw [exact] at off
  refine ⟨percent, fun state => ⟨found state, low state, high state⟩, off.trans (le_of_eq ?_)⟩
  norm_num [PowerState.all]

inductive Quantity where
  | inState (state : PowerState)
  | available

def Quantity.weight (accepts : PowerState → Bool) : Quantity → PowerState → Rat
  | inState shown, state => if state = shown then 1 else 0
  | available, state => if accepts state then 1 else 0

def sum (occupancy : Occupancy Rat) : Quantity → Rat
  | .inState state => (occupancy.inState state).duration
  | .available => occupancy.available

namespace Meter

def sum (meter : Meter Rat) : Quantity → Rat
  | .inState state => meter.durations state
  | .available => meter.available

structure IsAt (meter : Meter Rat) (last : Observation Rat) : Prop where
  current : ∃ stay, meter.current = some stay ∧ stay.state = last.state
  stop : meter.stop = some last.time

variable {accepts : PowerState → Bool}

theorem sum_close {meter : Meter Rat} {stay : Stay Rat} (going : meter.current = some stay)
    (time : Rat) (quantity : Quantity) :
    (meter.close (fun state _ => accepts state) time).sum quantity =
      meter.sum quantity + (time - stay.since) * quantity.weight accepts stay.state := by
  cases quantity <;> simp only [close, going, sum, Quantity.weight, eq_comm] <;> split <;> simp

theorem sum_closed {meter : Meter Rat} {stay : Stay Rat} {stop : Rat}
    (going : meter.current = some stay) (stopped : meter.stop = some stop) (quantity : Quantity) :
    (meter.closed accepts).sum quantity =
      meter.sum quantity + (stop - stay.since) * quantity.weight accepts stay.state := by
  simp only [closed, stopped, sum_close going]

/-- Up to each observation the time is summed up, whether or not the stay goes on there. -/
theorem isAt_take (quantity : Quantity) {meter : Meter Rat} {last : Observation Rat}
    (next : Observation Rat) (here : meter.IsAt last) : (meter.take accepts next).IsAt next ∧
      ((meter.take accepts next).closed accepts).sum quantity =
        (meter.closed accepts).sum quantity +
          (next.time - last.time) * quantity.weight accepts last.state := by
  obtain ⟨⟨stay, going, state⟩, stop⟩ := here
  rw [sum_closed going stop, ← state]
  have stopped : (meter.take accepts next).stop = some next.time := rfl
  cases continued : meter.continues next.state with
  | true =>
      have taken : meter.take accepts next = _ := take_of_continues continued
      have goesOn : (meter.take accepts next).current = some stay := by rw [taken, going]
      have unchanged : (meter.take accepts next).sum quantity = meter.sum quantity := by
        rw [taken]
        cases quantity <;> rfl
      simp only [continues, going, decide_eq_true_eq] at continued
      refine ⟨⟨⟨stay, goesOn, continued⟩, stopped⟩, ?_⟩
      rw [sum_closed goesOn stopped, unchanged]
      ring
  | false =>
      -- The stay that ends adds all of its time, and the one that begins has none yet.
      have taken : meter.take accepts next = _ := take_of_changed continued
      have begins : (meter.take accepts next).current =
          some { state := next.state, since := next.time } := by rw [taken]
      have closed : (meter.take accepts next).sum quantity =
          meter.sum quantity + (next.time - stay.since) * quantity.weight accepts stay.state := by
        rw [taken, ← sum_close going]
        cases quantity <;> simp only [sum, close, going]
      refine ⟨⟨⟨_, begins, rfl⟩, stopped⟩, ?_⟩
      rw [sum_closed begins stopped, closed]
      ring

theorem sum_foldl (observations : List (Observation Rat)) (quantity : Quantity) :
    ((observations.foldl (take accepts) fresh).closed accepts).sum quantity =
      integral Observation.time (fun observation => quantity.weight accepts observation.state)
        observations := by
  cases observations with
  | nil => cases quantity <;> rfl
  | cons first rest =>
      have begins : (fresh.take accepts first).current =
          some { state := first.state, since := first.time } := rfl
      have here : (fresh.take accepts first).IsAt first := ⟨⟨_, begins, rfl⟩, rfl⟩
      have nothing : ((fresh.take accepts first).closed accepts).sum quantity = 0 := by
        have fresh : (Meter.fresh.take accepts first).sum quantity = 0 := by cases quantity <;> rfl
        rw [sum_closed begins here.stop, fresh]
        ring
      rw [List.foldl_cons, foldl_integral (fun meter => (meter.closed accepts).sum quantity)
        (isAt_take quantity) here, nothing, zero_add]

theorem start_take (accepts : PowerState → Bool) (meter : Meter Rat) (next : Observation Rat) :
    (meter.take accepts next).start = (meter.start <|> some next.time) := by
  cases continued : meter.continues next.state with
  | true => rw [take_of_continues continued]
  | false =>
      rw [take_of_changed continued]
      simp only [close]
      split <;> rfl

theorem start_foldl {meter : Meter Rat} {start : Rat} (begun : meter.start = some start)
    (observations : List (Observation Rat)) :
    (observations.foldl (take accepts) meter).start = some start := by
  induction observations generalizing meter with
  | nil => exact begun
  | cons next rest ih =>
      refine ih ?_
      rw [start_take, begun]
      rfl

end Meter

theorem sum_ofObservations (accepts : PowerState → Bool) (observations : List (Observation Rat))
    (quantity : Quantity) :
    (ofObservations (fun state _ => accepts state) observations).sum quantity =
      integral Observation.time (fun observation => quantity.weight accepts observation.state)
        observations := by
  rw [ofObservations_eq, ← Meter.sum_foldl]
  cases quantity <;> rfl

theorem total_ofObservations (accepts : PowerState → Bool) {observations : List (Observation Rat)}
    {first last : Observation Rat} (head : observations.head? = some first)
    (tail : observations.getLast? = some last) :
    (ofObservations (fun state _ => accepts state) observations).total =
      last.time - first.time := by
  obtain ⟨rest, rfl⟩ := List.head?_eq_some_iff.mp head
  have begun : (Meter.fresh.take accepts first).start = some first.time := rfl
  have start : ((first :: rest).foldl (Meter.take accepts) Meter.fresh).start = some first.time :=
    Meter.start_foldl begun rest
  have stop := stop_foldl accepts (first :: rest)
  rw [tail] at stop
  rw [ofObservations_eq]
  simp only [total, Meter.finish, start, stop]
  rfl

theorem percentages_ofObservations (accepts : PowerState → Bool)
    (observations : List (Observation Rat)) {occupancy : Occupancy Rat}
    (made : occupancy = ofObservations (fun state _ => accepts state) observations)
    (state : PowerState) :
    (occupancy.inState state).ofTotal =
        percentage (occupancy.inState state).duration occupancy.total ∧
      (occupancy.inState state).ofAvailable =
        percentage (occupancy.inState state).duration occupancy.available := by
  subst made
  exact ⟨rfl, rfl⟩

/-- The stays of a host that was observed throughout a span. -/
structure Covers (occupancy : Occupancy Rat) (span : Span Rat) : Prop where
  nonneg : ∀ state, 0 ≤ (occupancy.inState state).duration
  total : (PowerState.all.map fun state => (occupancy.inState state).duration).sum = span.duration
  available : (occupancy.inState .idle).duration + (occupancy.inState .used).duration +
    (occupancy.inState .onError).duration = occupancy.available
  ofTotal_none : (∀ state, (occupancy.inState state).ofTotal = none) ↔ span.start = span.stop
  ofTotal_some : span.start ≠ span.stop → ∃ percent : PowerState → Rat,
    (∀ state, (occupancy.inState state).ofTotal = some (percent state) ∧
      0 ≤ percent state ∧ percent state ≤ 100) ∧
    |(PowerState.all.map percent).sum - 100| ≤ 9 / 20
  ofAvailable_none : (∀ state, (occupancy.inState state).ofAvailable = none) ↔
    occupancy.available = 0
  ofAvailable_some : occupancy.available ≠ 0 → ∀ state, state.isAvailable = true →
    ∃ percent, (occupancy.inState state).ofAvailable = some percent ∧ 0 ≤ percent ∧ percent ≤ 100

section Coverage

variable {observations : List (Observation Rat)} {occupancy : Occupancy Rat}
  (made : occupancy = ofObservations (fun state _ => state.isAvailable) observations)
include made

theorem sum_durations {first last : Observation Rat} (head : observations.head? = some first)
    (tail : observations.getLast? = some last) :
    (PowerState.all.map fun state => (occupancy.inState state).duration).sum =
      last.time - first.time := by
  have durations (state : PowerState) : (occupancy.inState state).duration = _ :=
    made ▸ sum_ofObservations PowerState.isAvailable observations (.inState state)
  simp only [durations]
  rw [← integral_sum, ← integral_one Observation.time head tail]
  refine integral_congr fun observation _ => ?_
  cases observation.state <;> simp [PowerState.all, Quantity.weight]

theorem durations_nonneg
    (ascending : observations.Pairwise fun left right => left.time ≤ right.time)
    (quantity : Quantity) : 0 ≤ occupancy.sum quantity := by
  rw [made, sum_ofObservations]
  refine integral_nonneg ascending fun observation _ => ?_
  cases quantity <;> simp only [Quantity.weight] <;> split <;> norm_num

theorem sum_available : (occupancy.inState .idle).duration + (occupancy.inState .used).duration +
    (occupancy.inState .onError).duration = occupancy.available := by
  have sums (quantity : Quantity) : occupancy.sum quantity = _ :=
    made ▸ sum_ofObservations PowerState.isAvailable observations quantity
  have available := sums .available
  have durations (state : PowerState) := sums (.inState state)
  simp only [sum] at available durations
  rw [available, durations, durations, durations, ← integral_add, ← integral_add]
  refine integral_congr fun observation _ => ?_
  cases observation.state <;> simp [Quantity.weight, PowerState.isAvailable]

theorem covers_ofObservations {span : Span Rat} {first last : Observation Rat}
    (ascending : observations.Pairwise fun left right => left.time ≤ right.time)
    (head : observations.head? = some first) (tail : observations.getLast? = some last)
    (start : first.time = span.start) (stop : last.time = span.stop) : occupancy.Covers span := by
  have nonneg (state : PowerState) : 0 ≤ (occupancy.inState state).duration :=
    durations_nonneg made ascending (.inState state)
  have availableNonneg : 0 ≤ occupancy.available := durations_nonneg made ascending .available
  have sums := sum_durations made head tail
  have available := sum_available made
  have total : occupancy.total = span.stop - span.start := by
    rw [made, total_ofObservations _ head tail, start, stop]
  have percentages := percentages_ofObservations PowerState.isAvailable observations made
  rw [start, stop] at sums
  have ordered : 0 ≤ span.stop - span.start := by
    have whole := @timeOf_nonneg _ Observation.time (fun _ => true) _ ascending
    simpa [timeOf, integral_one Observation.time head tail, start, stop] using whole
  refine
    { nonneg, available
      total := sums
      ofTotal_none := ?_
      ofTotal_some := ?_
      ofAvailable_none := ?_
      ofAvailable_some := ?_ }
  · simp only [percentages, percentage_none_iff, total]
    constructor
    · intro short
      linarith [short .idle]
    · intro same _
      linarith
  · intro differ
    have length : 0 < span.stop - span.start :=
      lt_of_le_of_ne ordered fun same => differ (sub_eq_zero.mp same.symm).symm
    simp only [percentages, total]
    exact exists_percentages length nonneg sums
  · simp only [percentages, percentage_none_iff]
    constructor
    · intro short
      linarith [short .idle]
    · intro none _
      linarith
  · intro some state counted
    have length : 0 < occupancy.available := lt_of_le_of_ne availableNonneg some.symm
    have part : (occupancy.inState state).duration ≤ occupancy.available := by
      have idle := nonneg .idle
      have used := nonneg .used
      have onError := nonneg .onError
      cases state <;> simp only [PowerState.isAvailable, Bool.false_eq_true] at counted <;> linarith
    obtain ⟨percent, found, low, high, _⟩ := exists_percentage length (nonneg state) part
    exact ⟨percent, (percentages state).2.trans found, low, high⟩

end Coverage

end Occupancy

end HostTimeline
