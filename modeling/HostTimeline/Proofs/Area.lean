import HostTimeline.Proofs.Integral
import HostTimeline.Proofs.Runs

/-!
The load of samples in exact arithmetic.  However the samples are divided into runs, its sums
are those of the step function through them (`Load.sum_of_ok`).
-/

namespace HostTimeline

namespace Quarter

/-- How many quarters lie below. -/
def index : Quarter → Rat
  | .first => 0
  | .second => 1
  | .third => 2
  | .fourth => 3

/-- Above the lower end of the quarter and up to its upper one.  The first quarter also has all
values below it. -/
def Has (place : Quarter) (limit value : Rat) : Prop :=
  (place = .first ∨ place.index * limit / 4 < value) ∧ value ≤ (place.index + 1) * limit / 4

instance (place : Quarter) (limit value : Rat) : Decidable (place.Has limit value) :=
  inferInstanceAs (Decidable (_ ∧ _))

theorem Has.unique {limit value : Rat} (positive : 0 < limit) {place other : Quarter}
    (here : place.Has limit value) (there : other.Has limit value) : place = other := by
  cases place <;> cases other <;> first
    | rfl
    | simp [Has, index] at here there
      linarith

end Quarter

namespace Load

theorem has_quarter {limit value : Rat} (positive : 0 < limit) (within : value ≤ limit) :
    (quarter value (limit / 4)).Has limit value := by
  have above (bound : Rat) : bound < value / (limit / 4) ↔ bound * limit / 4 < value := by
    rw [lt_div_iff₀ (by linarith), mul_div_assoc]
  have unfolded : quarter value (limit / 4) =
      if 3 * limit / 4 < value then .fourth
      else if 2 * limit / 4 < value then .third
      else if 1 * limit / 4 < value then .second
      else .first := by
    simp only [← above]
    rfl
  rw [unfolded]
  split_ifs with high middle low
  · exact ⟨.inr high, by rw [Quarter.index]; linarith⟩
  · exact ⟨.inr middle, by rw [Quarter.index]; linarith⟩
  · exact ⟨.inr low, by rw [Quarter.index]; linarith⟩
  · exact ⟨.inl rfl, by rw [Quarter.index]; linarith⟩

theorem eq_quarter_iff {limit value : Rat} (positive : 0 < limit) (within : value ≤ limit)
    (place : Quarter) : place = quarter value (limit / 4) ↔ place.Has limit value :=
  ⟨fun same => same ▸ has_quarter positive within,
    fun has => has.unique positive (has_quarter positive within)⟩

inductive Quantity where
  | area
  | acceptedArea
  | acceptedTime
  | inQuarter (place : Quarter)

namespace Quantity

/-- What a sample adds to a sum for each unit of time. -/
def weight (rule : Rule Rat) : Quantity → Sample Rat → Rat
  | area, sample => sample.value
  | acceptedArea, sample => if rule.accepts sample.state then sample.value else 0
  | acceptedTime, sample => if rule.accepts sample.state then 1 else 0
  | inQuarter place, sample =>
      if rule.accepts sample.state ∧ rule.width ≠ 0 ∧ place = quarter sample.value rule.width
      then 1 else 0

theorem weight_congr (rule : Rule Rat) (quantity : Quantity) {left right : Sample Rat}
    (value : left.value = right.value) (state : left.state = right.state) :
    quantity.weight rule left = quantity.weight rule right := by
  cases quantity <;> simp only [weight, value, state]

end Quantity

def sum (load : Load Rat) : Quantity → Rat
  | .area => load.area
  | .acceptedArea => load.acceptedArea
  | .acceptedTime => load.acceptedTime
  | .inQuarter place => load.histogram place

namespace Meter

def sum (meter : Meter Rat) : Quantity → Rat
  | .area => meter.area
  | .acceptedArea => meter.acceptedArea
  | .acceptedTime => meter.acceptedTime
  | .inQuarter place => meter.histogram place

variable {rule : Rule Rat}

theorem sum_close (meter : Meter Rat) (run : Sample Rat) (time : Rat) (quantity : Quantity) :
    (meter.close rule run time).sum quantity =
      meter.sum quantity + (time - run.time) * quantity.weight rule run := by
  have zero : (Scalar.zero : Rat) = 0 := rfl
  cases accepted : rule.accepts run.state with
  | false => cases quantity <;> simp [close, sum, Quantity.weight, accepted]
  | true =>
      cases quantity with
      | area => simp [close, sum, Quantity.weight, accepted]
      | acceptedArea => simp [close, sum, Quantity.weight, accepted]
      | acceptedTime => simp [close, sum, Quantity.weight, accepted]
      | inQuarter place =>
          by_cases narrow : rule.width = 0
          · simp [close, sum, Quantity.weight, accepted, zero, narrow]
          · by_cases here : place = quarter run.value rule.width
            · simp [close, sum, Quantity.weight, accepted, zero, narrow, ← here]
            · simp [close, sum, Quantity.weight, accepted, zero, narrow, here]

theorem sum_finish (meter : Meter Rat) (quantity : Quantity) :
    (meter.finish rule).sum quantity = (meter.ended rule).sum quantity := by
  cases quantity <;> rfl

structure IsAt (meter : Meter Rat) (last : Sample Rat) : Prop where
  run : ∃ run, meter.run = some run ∧ run.value = last.value ∧ run.state = last.state
  stop : meter.stop = last.time

theorem sum_ended {meter : Meter Rat} {run : Sample Rat} (going : meter.run = some run)
    (quantity : Quantity) : (meter.ended rule).sum quantity =
      meter.sum quantity + (meter.stop - run.time) * quantity.weight rule run := by
  rw [ended_eq going, sum_close]

/-- Up to each sample the step function is summed up, whether or not the run goes on there. -/
theorem isAt_accept (same : rule.same = sameValueAndState) (quantity : Quantity)
    {meter : Meter Rat} {last : Sample Rat} (next : Sample Rat) (here : meter.IsAt last) :
    (meter.accept rule next).IsAt next ∧
      ((meter.accept rule next).ended rule).sum quantity = (meter.ended rule).sum quantity +
        (next.time - last.time) * quantity.weight rule last := by
  obtain ⟨⟨run, going, value, state⟩, stop⟩ := here
  rw [sum_ended going, stop, ← quantity.weight_congr rule value state]
  cases continued : rule.same run next with
  | true =>
      have accepted := accept_of_same meter going continued
      have goesOn : (meter.accept rule next).run = some run := by rw [accepted, going]
      have unchanged : (meter.accept rule next).sum quantity = meter.sum quantity := by
        rw [accepted]
        cases quantity <;> rfl
      rw [same, sameValueAndState_iff, beq_iff_eq] at continued
      refine ⟨⟨⟨run, goesOn, continued⟩, rfl⟩, ?_⟩
      rw [sum_ended goesOn, unchanged]
      change _ + (next.time - run.time) * _ = _
      ring
  | false =>
      -- The run that ends adds all of its time, and the one that begins has none yet.
      have accepted := accept_of_changed meter going continued
      have begins : (meter.accept rule next).run = some next := by rw [accepted]
      have closed : (meter.accept rule next).sum quantity =
          meter.sum quantity + (next.time - run.time) * quantity.weight rule run := by
        rw [accepted, ← sum_close]
        cases quantity <;> simp only [sum, close] <;> split <;> rfl
      refine ⟨⟨⟨next, begins, rfl, rfl⟩, rfl⟩, ?_⟩
      rw [sum_ended begins, closed]
      change _ + (next.time - next.time) * _ = _
      ring

theorem sum_foldl (same : rule.same = sameValueAndState) (samples : List (Sample Rat))
    (quantity : Quantity) :
    ((samples.foldl (accept rule) fresh).ended rule).sum quantity =
      integral Sample.time (quantity.weight rule) samples := by
  cases samples with
  | nil => cases quantity <;> rfl
  | cons first rest =>
      have here : (fresh.accept rule first).IsAt first := ⟨⟨first, rfl, rfl, rfl⟩, rfl⟩
      have nothing : ((fresh.accept rule first).ended rule).sum quantity = 0 := by
        have fresh : (Meter.fresh.accept rule first).sum quantity = 0 := by cases quantity <;> rfl
        have begins : (Meter.fresh.accept rule first).run = some first := rfl
        rw [sum_ended begins, fresh]
        change _ + (first.time - first.time) * _ = _
        ring
      rw [List.foldl_cons, foldl_integral (fun meter => (meter.ended rule).sum quantity)
        (isAt_accept same quantity) here, nothing, zero_add]

theorem mean_finish {meter : Meter Rat} {start : Rat} (begun : meter.start = some start) :
    (meter.finish rule).mean = if 0 < meter.stop - start then
      some ((meter.finish rule).area / (meter.stop - start)) else none := by
  have zero : (Scalar.zero : Rat) = 0 := rfl
  simp only [finish, begun, zero]

end Meter

variable {rule : Rule Rat} {samples : List (Sample Rat)} {load : Load Rat}

theorem sum_of_ok (same : rule.same = sameValueAndState) (done : ofSamples rule samples = .ok load)
    (quantity : Quantity) :
    load.sum quantity = integral Sample.time (quantity.weight rule) samples := by
  rw [ofSamples_ok done, Meter.sum_finish, Meter.sum_foldl same]

theorem mean_of_ok {first last : Sample Rat} (done : ofSamples rule samples = .ok load)
    (head : samples.head? = some first) (tail : samples.getLast? = some last) :
    load.mean = if 0 < last.time - first.time then some (load.area / (last.time - first.time))
      else none := by
  obtain ⟨rest, rfl⟩ := List.head?_eq_some_iff.mp head
  have begun : (Meter.fresh.accept rule first).start = some first.time := rfl
  have start : ((first :: rest).foldl (Meter.accept rule) Meter.fresh).start = some first.time :=
    Meter.start_foldl begun rest
  have stop := Meter.stop_foldl rule (first :: rest) Meter.fresh
  rw [tail] at stop
  rw [ofSamples_ok done, Meter.mean_finish start, stop]
  rfl

theorem acceptedMean_of_ok (done : ofSamples rule samples = .ok load) :
    load.acceptedMean = if 0 < load.acceptedTime then some (load.acceptedArea / load.acceptedTime)
      else none := by
  rw [ofSamples_ok done]
  rfl

structure IsMean (mean : Rat) (counts : Sample Rat → Bool) (samples : List (Sample Rat)) : Prop where
  least : ∃ least ∈ samples, counts least = true ∧ least.value ≤ mean
  greatest : ∃ greatest ∈ samples, counts greatest = true ∧ mean ≤ greatest.value

/-- The load of the step function through the samples. -/
structure IsIntegral (load : Load Rat) (rule : Rule Rat) (samples : List (Sample Rat)) : Prop where
  area : load.area = integral Sample.time Sample.value samples
  acceptedTime : load.acceptedTime =
    timeOf Sample.time (fun sample => rule.accepts sample.state) samples
  acceptedArea : load.acceptedArea =
    areaOf Sample.time Sample.value (fun sample => rule.accepts sample.state) samples
  histogram : 0 < rule.limit → ∀ place, load.histogram place = timeOf Sample.time
    (fun sample => rule.accepts sample.state && decide (place.Has rule.limit sample.value)) samples
  quarters : 0 < rule.limit → load.histogram .first + load.histogram .second +
    load.histogram .third + load.histogram .fourth = load.acceptedTime
  noQuarters : rule.limit = 0 → ∀ place, load.histogram place = 0
  mean_none : load.mean = none ↔
    samples.head?.map Sample.time = samples.getLast?.map Sample.time
  mean_some : ∀ mean first last, load.mean = some mean → samples.head? = some first →
    samples.getLast? = some last →
    mean = load.area / (last.time - first.time) ∧ IsMean mean (fun _ => true) samples
  acceptedMean_none : load.acceptedMean = none ↔ load.acceptedTime = 0
  acceptedMean_some : ∀ mean, load.acceptedMean = some mean →
    mean = load.acceptedArea / load.acceptedTime ∧
      IsMean mean (fun sample => rule.accepts sample.state) samples

theorem isMean_div {counts : Sample Rat → Bool}
    (ascending : samples.Pairwise fun left right => left.time ≤ right.time)
    (positive : 0 < timeOf Sample.time counts samples) :
    IsMean (areaOf Sample.time Sample.value counts samples / timeOf Sample.time counts samples)
      counts samples := by
  obtain ⟨least, member, counted, below⟩ : ∃ least ∈ samples, counts least = true ∧
      least.value * timeOf Sample.time counts samples ≤
        areaOf Sample.time Sample.value counts samples :=
    exists_mul_timeOf_le ascending positive.ne'
  obtain ⟨greatest, otherMember, otherCounted, above⟩ : ∃ greatest ∈ samples,
      counts greatest = true ∧ areaOf Sample.time Sample.value counts samples ≤
        greatest.value * timeOf Sample.time counts samples :=
    exists_le_mul_timeOf ascending positive.ne'
  exact ⟨⟨least, member, counted, (le_div_iff₀ positive).mpr below⟩,
    ⟨greatest, otherMember, otherCounted, (div_le_iff₀ positive).mpr above⟩⟩

theorem histogram_of_ok (same : rule.same = sameValueAndState)
    (within : ∀ sample ∈ samples, sample.value ≤ rule.limit)
    (done : ofSamples rule samples = .ok load) (positive : 0 < rule.limit) (place : Quarter) :
    load.histogram place = timeOf Sample.time (fun sample =>
      rule.accepts sample.state && decide (place.Has rule.limit sample.value)) samples := by
  have width : rule.width = rule.limit / 4 := rfl
  refine (sum_of_ok same done (.inQuarter place)).trans (integral_congr fun sample member => ?_)
  simp [Quantity.weight, width, positive.ne', eq_quarter_iff positive (within sample member) place]

theorem quarters_of_ok (same : rule.same = sameValueAndState)
    (done : ofSamples rule samples = .ok load) (positive : 0 < rule.limit) :
    load.histogram .first + load.histogram .second + load.histogram .third +
      load.histogram .fourth = load.acceptedTime := by
  have width : rule.width = rule.limit / 4 := rfl
  have nonzero : rule.width ≠ 0 := by rw [width]; positivity
  have sums := sum_of_ok same done
  have acceptedTime := sums .acceptedTime
  have histogram (place : Quarter) := sums (.inQuarter place)
  simp only [sum] at acceptedTime histogram
  rw [acceptedTime, histogram, histogram, histogram, histogram, ← integral_add, ← integral_add,
    ← integral_add]
  refine integral_congr fun sample _ => ?_
  simp only [Quantity.weight]
  generalize quarter sample.value rule.width = place
  cases place <;> simp [nonzero]

theorem noQuarters_of_ok (same : rule.same = sameValueAndState)
    (done : ofSamples rule samples = .ok load) (zero : rule.limit = 0) (place : Quarter) :
    load.histogram place = 0 := by
  have width : rule.width = rule.limit / 4 := rfl
  have never : rule.width = 0 := by rw [width, zero, zero_div]
  refine (sum_of_ok same done (.inQuarter place)).trans ?_
  exact (integral_congr fun sample _ => if_neg fun counted => counted.2.1 never).trans
    (integral_zero _ _)

theorem length_eq {first last : Sample Rat} (head : samples.head? = some first)
    (tail : samples.getLast? = some last) :
    timeOf Sample.time (fun _ => true) samples = last.time - first.time := by
  simp only [timeOf, if_true]
  exact integral_one Sample.time head tail

theorem mean_none_iff_of_ok
    (ascending : samples.Pairwise fun left right => left.time ≤ right.time)
    (done : ofSamples rule samples = .ok load) :
    load.mean = none ↔ samples.head?.map Sample.time = samples.getLast?.map Sample.time := by
  cases head : samples.head? with
  | none =>
      rw [List.head?_eq_none_iff] at head
      subst head
      cases done
      simp [Meter.finish, Meter.fresh, Scalar.zero]
  | some first =>
      obtain ⟨rest, split⟩ := List.head?_eq_some_iff.mp head
      have tail : samples.getLast? = some (rest.getLast?.getD first) := by
        rw [split, List.getLast?_cons]
      have nonneg := length_eq head tail ▸ timeOf_nonneg ascending
      rw [mean_of_ok done head tail, tail]
      simp only [Option.map_some, Option.some.injEq, ite_eq_right_iff, reduceCtorEq, imp_false]
      constructor
      · intro short
        linarith
      · intro same
        linarith

theorem isIntegral_of_ok (same : rule.same = sameValueAndState)
    (ascending : samples.Pairwise fun left right => left.time ≤ right.time)
    (within : ∀ sample ∈ samples, sample.value ≤ rule.limit)
    (done : ofSamples rule samples = .ok load) : load.IsIntegral rule samples := by
  have area : load.area = integral Sample.time Sample.value samples := sum_of_ok same done .area
  have acceptedTime : load.acceptedTime =
      timeOf Sample.time (fun sample => rule.accepts sample.state) samples :=
    sum_of_ok same done .acceptedTime
  have acceptedArea : load.acceptedArea =
      areaOf Sample.time Sample.value (fun sample => rule.accepts sample.state) samples :=
    sum_of_ok same done .acceptedArea
  have timeNonneg : 0 ≤ load.acceptedTime := acceptedTime ▸ timeOf_nonneg ascending
  refine
    { area, acceptedTime, acceptedArea
      histogram := histogram_of_ok same within done
      quarters := quarters_of_ok same done
      noQuarters := noQuarters_of_ok same done
      mean_none := mean_none_iff_of_ok ascending done
      mean_some := ?_
      acceptedMean_none := ?_
      acceptedMean_some := ?_ }
  · intro mean first last found head tail
    have length := length_eq head tail
    rw [mean_of_ok done head tail] at found
    split at found
    next positive =>
      cases found
      refine ⟨rfl, ?_⟩
      have everything : load.area = areaOf Sample.time Sample.value (fun _ => true) samples := area
      rw [everything, ← length]
      exact isMean_div ascending (length ▸ positive)
    · cases found
  · rw [acceptedMean_of_ok done]
    simp only [ite_eq_right_iff, reduceCtorEq, imp_false]
    constructor
    · intro short
      linarith
    · intro same
      linarith
  · intro mean found
    rw [acceptedMean_of_ok done] at found
    split at found
    next positive =>
      cases found
      refine ⟨rfl, ?_⟩
      rw [acceptedArea, acceptedTime]
      exact isMean_div ascending (acceptedTime ▸ positive)
    · cases found

/-- The load of ascending samples up to a limit is that of the step function through them. -/
theorem ofSamples_isIntegral {limit : Rat} (accepts : PowerState → Bool)
    (ascending : samples.Pairwise fun left right => left.time ≤ right.time)
    (within : ∀ sample ∈ samples, sample.value ≤ limit) : ∃ load,
      ofSamples (.bySteps limit accepts) samples = .ok load ∧
        load.IsIntegral (.bySteps limit accepts) samples := by
  have done : ofSamples (.bySteps limit accepts) samples = _ :=
    ofSamples_of_le fun sample member => not_lt.mpr (within sample member)
  exact ⟨_, done, isIntegral_of_ok rfl ascending within done⟩

/-- Below zero, used, off, and then used as before. -/
def fourRuns : List (Sample Rat) :=
  [{ time := 0, value := -1, state := .idle }, { time := 2, value := 3, state := .used },
    { time := 3, value := 3, state := .used }, { time := 3, value := 3, state := .off },
    { time := 5, value := 3, state := .used }, { time := 9, value := 3, state := .used }]

theorem ofSamples_isIntegral_four_runs : ∃ load,
    ofSamples (.bySteps 4 PowerState.isAvailable) fourRuns = .ok load ∧
      load.IsIntegral (.bySteps 4 PowerState.isAvailable) fourRuns ∧
      load.area = 19 ∧ load.acceptedTime = 7 := by
  obtain ⟨load, done, isIntegral⟩ := ofSamples_isIntegral PowerState.isAvailable
    (show fourRuns.Pairwise fun left right => left.time ≤ right.time by decide)
    (show ∀ sample ∈ fourRuns, sample.value ≤ 4 by decide)
  refine ⟨load, done, isIntegral, ?_, ?_⟩
  · rw [isIntegral.area]
    norm_num [integral, fourRuns]
  · rw [isIntegral.acceptedTime]
    norm_num [timeOf, integral, fourRuns, PowerState.isAvailable, Rule.bySteps]

end Load

theorem Track.sum_load {track : Track Rat} {resource : Resource} {limit : Rat} {load : Load Rat}
    (done : track.load resource limit = .ok load) (quantity : Load.Quantity) :
    load.sum quantity = integral Observation.time (fun observation =>
      quantity.weight (.bySteps limit PowerState.isAvailable) (observation.sample resource))
      track.observations := by
  have measured : load.sum quantity = integral Sample.time
      (quantity.weight (.bySteps limit PowerState.isAvailable))
      (track.observations.map fun observation => observation.sample resource) :=
    Load.sum_of_ok rfl done quantity
  rw [measured, integral_map]
  rfl

end HostTimeline
