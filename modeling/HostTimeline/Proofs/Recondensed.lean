import HostTimeline.Proofs.Lossless
import HostTimeline.Proofs.Number.SignedZero

/-!
Condensing what was condensed before.  It drops something exactly where a host left its values
and came back to them within one instant: what was retained of that instant then repeats what
was retained before it (`condenseHosts_isSettled_iff`).  Condensing a third time drops nothing.
-/

namespace HostTimeline

namespace Binary64

theorem wholeUnits_wholeUnits (value : Int) : wholeUnits (wholeUnits value) = wholeUnits value := by
  obtain ⟨sign, size, rfl⟩ := exists_apply value
  rw [wholeUnits_apply, wholeUnits_apply, nearestOnes_ones]

theorem eq_zero_of_beq {x : Float} (zero : (x == Scalar.zero) = true) : x = 0 ∨ x = -0 := by
  obtain ⟨_, _, same | ⟨positive, _⟩ | ⟨negative, _⟩⟩ := Float.beq_iff_ne_nan_and_eq.mp zero
  · exact .inl same
  · exact .inl positive
  · exact .inr negative

theorem round_round {x : Float} (finite : x.isFinite = true) : round (round x) = round x := by
  have rounded := isFinite_round finite
  have number := isNaN_of_isFinite rounded
  have numberAgain := isNaN_of_isFinite (isFinite_round rounded)
  have ticked : ticks (round (round x)) = ticks (round x) := by
    rw [ticks_round rounded, ticks_round finite, wholeUnits_wholeUnits]
  have same : (round x == round (round x)) = true := OrderedScalar.beq_iff_le_le.mpr
    ⟨le_iff.mpr ⟨number, numberAgain, le_of_eq ticked.symm⟩,
      le_iff.mpr ⟨numberAgain, number, le_of_eq ticked⟩⟩
  by_cases zero : (round x == Scalar.zero) = true
  · rcases eq_zero_of_beq zero with positive | negative
    · rw [positive]
      rfl
    · rw [negative]
      rfl
  · exact (eq_of_alike (.inr same) zero).symm

end Binary64

section Options

variable {β γ : Type} {related : β → γ → Prop} {left? : Option β} {right? : Option γ}
  (both : Option.Rel related left? right?)
include both

theorem exists_rel_of_left {left : β} (found : left? = some left) :
    ∃ right, right? = some right ∧ related left right := by
  subst found
  cases both with
  | some same => exact ⟨_, rfl, same⟩

theorem exists_rel_of_right {right : γ} (found : right? = some right) :
    ∃ left, left? = some left ∧ related left right := by
  subst found
  cases both with
  | some same => exact ⟨_, rfl, same⟩

end Options

open OrderedScalar

variable {α : Type} [Scalar α]

/-- The last observation before a time. -/
def Observation.standingBefore? (observations : List (Observation α)) (time : α) :
    Option (Observation α) :=
  (observations.filter fun observation => decide (observation.time < time)).getLast?

namespace Observation

section Before

variable {first : Observation α} {time : α}

theorem standingBefore?_cons_of_lt (reached : first.time < time) (rest : List (Observation α)) :
    standingBefore? (first :: rest) time = some ((standingBefore? rest time).getD first) := by
  rw [standingBefore?, List.filter_cons_of_pos (by simpa using reached), List.getLast?_cons]
  rfl

theorem standingBefore?_of_not_lt {observations : List (Observation α)}
    (beyond : ∀ observation ∈ observations, ¬ observation.time < time) :
    standingBefore? observations time = none := by
  have none : (observations.filter fun observation => decide (observation.time < time)) = [] :=
    List.filter_eq_nil_iff.mpr fun observation member => by simpa using beyond observation member
  rw [standingBefore?, none]
  rfl

variable [OrderedScalar α]

theorem standingBefore?_head {rest : List (Observation α)}
    (increasing : (first :: rest).Pairwise fun left right => left.time < right.time) :
    standingBefore? (first :: rest) first.time = none := by
  refine standingBefore?_of_not_lt fun observation member less => ?_
  rcases List.mem_cons.mp member with rfl | later
  · exact lt_irrefl _ less
  · exact lt_irrefl _ (lt_trans less ((List.pairwise_cons.mp increasing).1 observation later))

theorem standingBefore?_congr (observations : List (Observation α)) {other : α}
    (same : (time == other) = true) :
    standingBefore? observations time = standingBefore? observations other := by
  refine congrArg List.getLast? (List.filter_congr fun observation _ => ?_)
  exact decide_eq_decide.mpr (lt_congr (.inl rfl) (.inr same))

/-- In a strictly ascending list the observation before another one is the last before its
time. -/
theorem isChain_iff_standingBefore? {related : Observation α → Observation α → Prop}
    {observations : List (Observation α)}
    (increasing : observations.Pairwise fun left right => left.time < right.time) :
    observations.IsChain related ↔ ∀ next ∈ observations,
      ∀ previous ∈ standingBefore? observations next.time, related previous next := by
  induction observations with
  | nil => simp
  | cons first rest ih =>
      obtain ⟨below, increasingRest⟩ := List.pairwise_cons.mp increasing
      have later {next : Observation α} (member : next ∈ rest) :=
        standingBefore?_cons_of_lt (below next member) rest
      rw [List.isChain_cons, ih increasingRest]
      constructor
      · intro ⟨link, chained⟩ next member previous found
        rcases List.mem_cons.mp member with rfl | member
        · simp [standingBefore?_head increasing] at found
        rw [later member, Option.mem_some] at found
        cases before : standingBefore? rest next.time with
        | some known => exact found ▸ before ▸ chained next member known before
        | none =>
            -- Nothing but the first one stands before, so `next` follows it.
            rw [before, Option.getD_none] at found
            subst found
            refine link next ?_
            cases rest with
            | nil => cases member
            | cons second rest =>
                rcases List.mem_cons.mp member with rfl | after
                · rfl
                · rw [standingBefore?_cons_of_lt
                    ((List.pairwise_cons.mp increasingRest).1 next after)] at before
                  cases before
      · intro linked
        constructor
        · intro second found
          cases rest with
          | nil => cases found
          | cons next rest =>
              obtain rfl := Option.some.inj found
              refine linked next (by simp) first ?_
              rw [later List.mem_cons_self, standingBefore?_head increasingRest]
              rfl
        · intro next member previous found
          refine linked next (List.mem_cons_of_mem first member) previous ?_
          rw [later member, Option.mem_def.mp found]
          rfl

theorem standing?_eq_of_increasing {observations : List (Observation α)}
    (increasing : observations.Pairwise fun left right => left.time < right.time)
    {observation : Observation α} (member : observation ∈ observations) {time : α}
    (same : (observation.time == time) = true) :
    standing? observations time = some observation := by
  induction observations with
  | nil => cases member
  | cons first rest ih =>
      obtain ⟨below, increasingRest⟩ := List.pairwise_cons.mp increasing
      rcases List.mem_cons.mp member with rfl | later
      · rw [standing?_cons_of_le (le_of_beq same), standing?_of_beyond fun next found reached =>
          not_le_of_lt (below next found) (le_trans reached (le_of_beq (beq_symm same)))]
        rfl
      · rw [standing?_cons_of_le (le_trans (le_of_lt (below observation later)) (le_of_beq same)),
          ih increasingRest later]
        rfl

/-- What stood before a time stood at the time of the last observation before it. -/
theorem lt_iff_le_of_standingBefore? {observations : List (Observation α)}
    (ascending : observations.Pairwise fun left right => left.time ≤ right.time) {time : α}
    {last : Observation α} (found : standingBefore? observations time = some last)
    {observation : Observation α} (member : observation ∈ observations)
    (comparable : observation.time ≤ observation.time) :
    observation.time < time ↔ observation.time ≤ last.time := by
  have before := (List.mem_filter.mp (List.mem_of_getLast? found)).2
  rw [decide_eq_true_eq] at before
  constructor
  · intro less
    have kept : observation ∈ observations.filter fun observation =>
        decide (observation.time < time) := List.mem_filter.mpr ⟨member, by simpa using less⟩
    obtain ⟨earlier, split⟩ := List.getLast?_eq_some_iff.mp found
    have ordered := ascending.sublist (List.filter_sublist (p := fun observation : Observation α =>
      decide (observation.time < time)))
    rw [split] at kept ordered
    rcases List.mem_append.mp kept with early | here
    · exact (List.pairwise_append.mp ordered).2.2 observation early last List.mem_cons_self
    · rwa [List.mem_singleton.mp here] at comparable ⊢
  · exact fun le => lt_of_le_of_lt le before

end Before

end Observation

namespace Criteria

open Observation

/-- Within one instant no host leaves its values and comes back to them: where the last
observation at a time agrees with the last one before, so does every other one at that time. -/
def NeverReturns (criteria : Criteria) (observations : List (Observation α)) : Prop :=
  ∀ observation ∈ observations, ∀ earlier ∈ standingBefore? observations observation.time,
    ∀ latest ∈ standing? observations observation.time,
      criteria.agree latest earlier = true → criteria.agree observation earlier = true

/-- No observation repeats the one before it. -/
def NeverRepeats (criteria : Criteria) (observations : List (Observation α)) : Prop :=
  observations.IsChain fun previous next => ¬ criteria.agree next previous = true

theorem selected_congr {selected first second : Bool} (same : selected = true → first = second) :
    (!selected || first) = (!selected || second) := by
  cases selected with
  | false => rfl
  | true => rw [same rfl]

variable [OrderedScalar α] {criteria : Criteria}

theorem agree_congr {left other right next : Observation α} (first : criteria.Alike left other)
    (second : criteria.Alike right next) :
    criteria.agree left right = criteria.agree other next := by
  unfold agree
  congr 1
  · congr 1
    · congr 1
      · congr 1
        · exact selected_congr fun selected => by
            rw [first.state selected, second.state selected]
        · exact selected_congr fun selected =>
            beq_congr (first.memoryUsed selected) (second.memoryUsed selected)
      · exact selected_congr fun selected =>
          beq_congr (first.memory selected) (second.memory selected)
    · exact selected_congr fun selected => by
        rw [first.slotsUsed selected, second.slotsUsed selected]
  · exact selected_congr fun selected => by rw [first.slots selected, second.slots selected]

variable {kept : Observation α} {rest : List (Observation α)}

/-- What is retained begins at the time of the first observation, and with the first one itself
if no other has that time. -/
theorem condenseFrom_eq_cons (criteria : Criteria) (rest : List (Observation α))
    (comparable : kept.time ≤ kept.time) :
    ∃ head tail, criteria.condenseFrom kept rest = head :: tail ∧
      (head.time == kept.time) = true ∧
      ((∀ later ∈ rest, ¬ (kept.time == later.time) = true) → head = kept) := by
  induction rest generalizing kept with
  | nil => exact ⟨kept, [], rfl, beq_self comparable, fun _ => rfl⟩
  | cons next rest ih =>
      unfold condenseFrom
      split
      · obtain ⟨head, tail, split, time, isKept⟩ := ih comparable
        exact ⟨head, tail, split, time,
          fun apart => isKept fun later member => apart later (List.mem_cons_of_mem next member)⟩
      · split
        next same =>
          obtain ⟨head, tail, split, time, -⟩ := ih (le_self_of_le (le_of_beq same)).2
          exact ⟨head, tail, split, beq_trans time (beq_symm same),
            fun apart => absurd same (apart next List.mem_cons_self)⟩
        · exact ⟨kept, _, rfl, beq_self comparable, fun _ => rfl⟩

/-- Each retained observation follows another because of one, at its time, that differs from the
other. -/
theorem isChain_condenseFrom
    (comparable : ∀ observation ∈ kept :: rest, observation.time ≤ observation.time) :
    (criteria.condenseFrom kept rest).IsChain fun previous next => ∃ observation ∈ rest,
      (observation.time == next.time) = true ∧ ¬ criteria.agree observation previous = true := by
  have widen {some more : List (Observation α)} (fewer : some ⊆ more)
      {previous next : Observation α} : (∃ observation ∈ some,
        (observation.time == next.time) = true ∧ ¬ criteria.agree observation previous = true) →
      ∃ observation ∈ more,
        (observation.time == next.time) = true ∧ ¬ criteria.agree observation previous = true :=
    fun ⟨observation, member, found⟩ => ⟨observation, fewer member, found⟩
  induction rest generalizing kept with
  | nil => exact .singleton kept
  | cons next rest ih =>
      have later := fun observation member =>
        comparable observation (List.mem_cons_of_mem kept member)
      unfold condenseFrom
      split
      · refine (ih fun observation member => ?_).imp fun _ _ =>
          widen (List.subset_cons_self next rest)
        rcases List.mem_cons.mp member with rfl | found
        · exact comparable _ List.mem_cons_self
        · exact later observation (List.mem_cons_of_mem next found)
      next differs =>
        have chained := (ih later).imp fun _ _ => widen (List.subset_cons_self next rest)
        split
        · exact chained
        · obtain ⟨head, tail, split, time, -⟩ :=
            criteria.condenseFrom_eq_cons rest (later next List.mem_cons_self)
          rw [split] at chained ⊢
          exact List.isChain_cons_cons.mpr
            ⟨⟨next, List.mem_cons_self, beq_symm time, differs⟩, chained⟩

theorem exists_retained_at (comparable : kept.time ≤ kept.time) {time : α}
    (same : (kept.time == time) = true) :
    ∃ retained ∈ criteria.condenseFrom kept rest, (retained.time == time) = true := by
  obtain ⟨head, tail, split, headTime, -⟩ :=
    criteria.condenseFrom_eq_cons rest comparable
  exact ⟨head, split ▸ List.mem_cons_self, beq_trans headTime same⟩

/-- Where all others come later, the first observation is retained and stands before them. -/
theorem standingBefore?_condenseFrom
    (ascending : (kept :: rest).Pairwise fun left right => left.time ≤ right.time)
    (comparable : kept.time ≤ kept.time) {time : α} (less : kept.time < time)
    (onward : ∀ later ∈ rest, time ≤ later.time) :
    standingBefore? (criteria.condenseFrom kept rest) time = some kept := by
  obtain ⟨head, tail, split, -, isKept⟩ := criteria.condenseFrom_eq_cons rest comparable
  obtain rfl := isKept fun later member same =>
    not_le_of_lt less (le_trans (onward later member) (le_of_beq (beq_symm same)))
  have increasing : (criteria.condenseFrom head rest).Pairwise fun left right =>
      left.time < right.time := increasing_condenseFrom ascending
  have beyond : ∀ retained ∈ tail, ¬ retained.time < time := by
    intro retained found
    have known := mem_condenseFrom (split ▸ List.mem_cons_of_mem head found)
    rw [split] at increasing
    rcases List.mem_cons.mp known with rfl | reported
    · exact absurd ((List.pairwise_cons.mp increasing).1 _ found) (lt_irrefl _)
    · exact fun early => not_le_of_lt early (onward retained reported)
  rw [split, standingBefore?_cons_of_lt less, standingBefore?_of_not_lt beyond]
  rfl

/-- Each observation is at a time of a retained one, or repeats the last one retained before. -/
theorem retained_or_agrees (criteria : Criteria)
    (ascending : (kept :: rest).Pairwise fun left right => left.time ≤ right.time)
    (comparable : ∀ observation ∈ kept :: rest, observation.time ≤ observation.time)
    {observation : Observation α} (member : observation ∈ kept :: rest) :
    (∃ retained ∈ criteria.condenseFrom kept rest, (retained.time == observation.time) = true) ∨
      ∃ before, standingBefore? (criteria.condenseFrom kept rest) observation.time = some before ∧
        criteria.agree observation before = true := by
  induction rest generalizing kept with
  | nil =>
      obtain rfl := List.mem_singleton.mp member
      exact .inl (exists_retained_at (comparable _ member) (beq_self (comparable _ member)))
  | cons next rest ih =>
      obtain ⟨below, ascendingRest⟩ := List.pairwise_cons.mp ascending
      have comparableKept := comparable kept List.mem_cons_self
      have skipping := ascending.sublist ((List.sublist_cons_self next rest).cons_cons kept)
      have later := fun observation member =>
        comparable observation (List.mem_cons_of_mem kept member)
      rcases List.mem_cons.mp member with rfl | member
      · exact .inl (exists_retained_at comparableKept (beq_self comparableKept))
      by_cases same : (kept.time == observation.time) = true
      · exact .inl (exists_retained_at comparableKept same)
      have less : kept.time < observation.time :=
        (lt_or_beq_of_le (below observation member)).resolve_right same
      unfold condenseFrom
      split
      next agrees =>
        rcases List.mem_cons.mp member with rfl | member
        · exact .inr ⟨kept, standingBefore?_condenseFrom skipping comparableKept less
            (List.pairwise_cons.mp ascendingRest).1, agrees⟩
        · refine ih skipping (fun observation found => ?_) (List.mem_cons_of_mem kept member)
          rcases List.mem_cons.mp found with rfl | found
          · exact comparableKept
          · exact later observation (List.mem_cons_of_mem next found)
      · split
        · exact ih ascendingRest later member
        · rcases ih ascendingRest later member with
            ⟨retained, found, time⟩ | ⟨before, found, agrees⟩
          · exact .inl ⟨retained, List.mem_cons_of_mem kept found, time⟩
          · refine .inr ⟨before, ?_, agrees⟩
            rw [standingBefore?_cons_of_lt less, found]
            rfl

variable {observations : List (Observation α)}

/-- What stood before a time among what was retained is alike to what stood before it among what
was reported. -/
theorem rel_standingBefore? (criteria : Criteria)
    (ascending : observations.Pairwise fun left right => left.time ≤ right.time)
    (comparable : ∀ observation ∈ observations, observation.time ≤ observation.time) (time : α) :
    Option.Rel criteria.Alike (standingBefore? observations time)
      (standingBefore? (criteria.condenseSorted observations) time) := by
  have fewer := (criteria.condenseSorted_sublist observations).subset
  cases found : standingBefore? observations time with
  | none =>
      have beyond := List.filter_eq_nil_iff.mp (List.getLast?_eq_none_iff.mp found)
      rw [standingBefore?_of_not_lt fun observation member => by
        simpa using beyond observation (fewer member)]
      exact .none
  | some earlier =>
      have same : standingBefore? (criteria.condenseSorted observations) time =
          standing? (criteria.condenseSorted observations) earlier.time := by
        refine congrArg List.getLast? (List.filter_congr fun observation member => ?_)
        exact decide_eq_decide.mpr (lt_iff_le_of_standingBefore? ascending found (fewer member)
          (comparable observation (fewer member)))
      have here : standing? observations earlier.time = some earlier := by
        rw [← found]
        refine congrArg List.getLast? (List.filter_congr fun observation member => ?_)
        exact decide_eq_decide.mpr (lt_iff_le_of_standingBefore? ascending found member
          (comparable observation member)).symm
      rw [same, ← here]
      exact (criteria.isLossless_condenseSorted ascending).standing earlier.time

/-- What is retained repeats itself exactly where a host comes back to its values. -/
theorem neverRepeats_condenseSorted_iff
    (ascending : observations.Pairwise fun left right => left.time ≤ right.time)
    (comparable : ∀ observation ∈ observations, observation.time ≤ observation.time) :
    criteria.NeverRepeats (criteria.condenseSorted observations) ↔
      criteria.NeverReturns observations := by
  cases observations with
  | nil => exact iff_of_true .nil fun observation member => nomatch member
  | cons first rest =>
      have lossless := criteria.isLossless_condenseSorted ascending
      have befores := criteria.rel_standingBefore? ascending comparable
      rw [NeverRepeats, isChain_iff_standingBefore? lossless.increasing]
      constructor
      · intro chained observation member earlier foundEarlier latest foundLatest returned
        obtain ⟨previous, foundPrevious, alike⟩ :=
          exists_rel_of_left (befores observation.time) foundEarlier
        obtain ⟨final, foundFinal, alikeLatest⟩ :=
          exists_rel_of_left (lossless.standing observation.time) foundLatest
        rcases criteria.retained_or_agrees ascending comparable member with
          ⟨retained, found, time⟩ | ⟨other, foundOther, agrees⟩
        · rw [standing?_eq_of_increasing lossless.increasing found time] at foundFinal
          obtain rfl := Option.some.inj foundFinal
          rw [← standingBefore?_congr _ time] at foundPrevious
          refine absurd ?_ (chained retained found previous foundPrevious)
          rw [← agree_congr alikeLatest alike, returned]
        · obtain rfl := Option.some.inj (foundPrevious.symm.trans foundOther)
          rwa [agree_congr (.refl criteria observation) alike]
      · intro never next found previous foundPrevious agrees
        have caused := (isChain_iff_standingBefore? lossless.increasing).mp
          (isChain_condenseFrom comparable)
        obtain ⟨observation, member, time, differs⟩ := caused next found previous foundPrevious
        rw [← standingBefore?_congr _ time] at foundPrevious
        obtain ⟨earlier, foundEarlier, alike⟩ :=
          exists_rel_of_right (befores observation.time) foundPrevious
        obtain ⟨latest, foundLatest, alikeLatest⟩ :=
          exists_rel_of_right (lossless.standing observation.time)
            (standing?_eq_of_increasing lossless.increasing found (beq_symm time))
        refine differs ?_
        rw [← agree_congr (.refl criteria observation) alike]
        refine never observation (List.mem_cons_of_mem first member) earlier foundEarlier latest
          foundLatest ?_
        rw [agree_congr alikeLatest alike, agrees]

/-- Nothing is dropped from observations in order, each at a time of its own, exactly if none
repeats the one before it. -/
theorem condenseSorted_eq_self_iff
    (increasing : observations.Pairwise fun left right => left.time < right.time) :
    criteria.condenseSorted observations = observations ↔ criteria.NeverRepeats observations := by
  cases observations with
  | nil => exact iff_of_true rfl .nil
  | cons first rest =>
      rw [condenseSorted]
      induction rest generalizing first with
      | nil => exact iff_of_true rfl (.singleton first)
      | cons next rest ih =>
          obtain ⟨below, increasingRest⟩ := List.pairwise_cons.mp increasing
          have apart := not_beq_of_lt (below next List.mem_cons_self)
          rw [NeverRepeats, List.isChain_cons_cons, condenseFrom, if_neg apart]
          split
          next agrees =>
            have fewer := (criteria.condenseFrom_sublist first rest).length_le
            refine iff_of_false (fun same => ?_) fun differ => differ.1 agrees
            simp [same] at fewer
          next differs =>
            rw [List.cons_inj_right, ih next increasingRest]
            exact (and_iff_right differs).symm

theorem place_place (criteria : Criteria) {observation : Observation Float}
    (finite : observation.time.isFinite = true) :
    criteria.place (criteria.place observation) = criteria.place observation := by
  unfold place
  split
  · exact congrArg (fun time => { observation with time }) (Binary64.round_round finite)
  · rfl

theorem isFinite_place (criteria : Criteria) {observation : Observation Float}
    (finite : observation.time.isFinite = true) :
    (criteria.place observation).time.isFinite = true := by
  unfold place
  split
  · exact Binary64.isFinite_round finite
  · exact finite

section Again

variable {observations : List (Observation Float)}
  (timesFinite : ∀ observation ∈ observations, observation.time.isFinite = true)
include timesFinite

theorem timesFinite_condense (criteria : Criteria) :
    ∀ observation ∈ criteria.condense observations, observation.time.isFinite = true := by
  intro observation member
  obtain ⟨reported, found, rfl⟩ := exists_of_mem_condense member
  exact criteria.isFinite_place (timesFinite reported found)

/-- What was retained is in order, and at its times already. -/
theorem map_place_sort_condense (criteria : Criteria) :
    (sortByTime (criteria.condense observations)).map criteria.place =
      criteria.condense observations := by
  have increasing := (criteria.isLossless_condense timesFinite).increasing
  have sorted : sortByTime (criteria.condense observations) = criteria.condense observations :=
    sortOn_eq_self increasing
  rw [sorted]
  refine (List.map_congr_left fun observation member => ?_).trans (List.map_id _)
  obtain ⟨reported, found, rfl⟩ := exists_of_mem_condense member
  exact criteria.place_place (timesFinite reported found)

theorem condense_condense_eq_iff_neverRepeats (criteria : Criteria) :
    criteria.condense (criteria.condense observations) = criteria.condense observations ↔
      criteria.NeverRepeats (criteria.condense observations) := by
  rw [condense.eq_def criteria (criteria.condense observations),
    map_place_sort_condense timesFinite]
  exact condenseSorted_eq_self_iff (criteria.isLossless_condense timesFinite).increasing

theorem neverRepeats_condense_iff (criteria : Criteria) :
    criteria.NeverRepeats (criteria.condense observations) ↔
      criteria.NeverReturns ((sortByTime observations).map criteria.place) := by
  refine neverRepeats_condenseSorted_iff (criteria.ascends_place timesFinite) ?_
  intro observation member
  obtain ⟨reported, found, rfl⟩ := List.mem_map.mp member
  exact Binary64.le_self_of_isFinite
    (criteria.isFinite_place (timesFinite reported (mem_stableSort.mp found)))

/-- What was retained once is settled after one more time: each of its times is there once. -/
theorem condense_condense_condense (criteria : Criteria) :
    criteria.condense (criteria.condense (criteria.condense observations)) =
      criteria.condense (criteria.condense observations) := by
  have finite := timesFinite_condense timesFinite criteria
  have increasing := (criteria.isLossless_condense timesFinite).increasing
  rw [condense_condense_eq_iff_neverRepeats finite, neverRepeats_condense_iff finite,
    map_place_sort_condense timesFinite]
  intro observation member earlier _ latest found agrees
  have only := standing?_eq_of_increasing increasing member
    (beq_self (Binary64.le_self_of_isFinite (finite observation member)))
  rwa [Option.some.inj (only.symm.trans found)]

end Again

/-- Condensing the hosts drops nothing and changes nothing. -/
def IsSettled (criteria : Criteria) (hosts : HostMap (List (Observation Float))) : Prop :=
  (condenseHosts criteria hosts).2 = 0 ∧ (condenseHosts criteria hosts).1 = hosts

theorem isSettled_iff {hosts : HostMap (List (Observation Float))} :
    criteria.IsSettled hosts ↔
      ∀ observations ∈ hosts.values, criteria.condense observations = observations := by
  constructor
  · intro ⟨_, same⟩
    have values := congrArg HostMap.values same
    rw [condenseHosts, HostMap.values_map] at values
    exact List.map_inj_left.mp (values.trans (List.map_id _).symm)
  · intro settled
    constructor
    · have none : ∀ count ∈ hosts.values.map criteria.dropped, count = 0 := by
        intro count member
        obtain ⟨observations, found, rfl⟩ := List.mem_map.mp member
        rw [dropped, settled observations found, Nat.sub_self]
      exact List.sum_eq_foldl.symm.trans (List.sum_eq_zero none)
    · obtain ⟨entries, distinct⟩ := hosts
      refine (HostMap.mk.injEq ..).mpr ((List.map_congr_left fun entry member => ?_).trans
        (List.map_id _))
      exact Prod.ext rfl (settled entry.2 (List.mem_map_of_mem member))

end Criteria

open Criteria Observation

/-- Condensing the hosts a second time drops nothing exactly if no host, within one instant,
leaves its values and comes back to them; a third time it never does. -/
theorem condenseHosts_isSettled_iff (criteria : Criteria)
    (hosts : HostMap (List (Observation Float)))
    (timesFinite : ∀ observations ∈ hosts.values, ∀ observation ∈ observations,
      observation.time.isFinite = true) :
    (criteria.IsSettled (condenseHosts criteria hosts).1 ↔ ∀ observations ∈ hosts.values,
      criteria.NeverReturns ((sortByTime observations).map criteria.place)) ∧
    (criteria.IsSettled (condenseHosts criteria hosts).1 ↔
      ∀ retained ∈ (condenseHosts criteria hosts).1.values, criteria.NeverRepeats retained) ∧
    criteria.IsSettled (condenseHosts criteria (condenseHosts criteria hosts).1).1 := by
  have values (hosts : HostMap (List (Observation Float))) :
      (condenseHosts criteria hosts).1.values = hosts.values.map criteria.condense :=
    hosts.values_map criteria.condense
  simp only [isSettled_iff, values, List.forall_mem_map]
  refine ⟨forall₂_congr fun observations member => ?_,
    forall₂_congr fun observations member => ?_, fun observations member => ?_⟩
  · rw [condense_condense_eq_iff_neverRepeats (timesFinite observations member),
      neverRepeats_condense_iff (timesFinite observations member)]
  · exact condense_condense_eq_iff_neverRepeats (timesFinite observations member) criteria
  · exact condense_condense_condense (timesFinite observations member) criteria

/-- Of the three reports that round to one second the last is retained, and the one after it is
dropped at once. -/
theorem condenseHosts_isSettled_crowded :
    stateBySecond.IsSettled (condenseHosts stateBySecond HostMap.crowded).1 ∧
      (condenseHosts stateBySecond HostMap.crowded).1.values.map List.length = [1, 0] := by
  obtain ⟨settles, _⟩ := condenseHosts_isSettled_iff stateBySecond HostMap.crowded
    (by decide +kernel)
  refine ⟨settles.mpr ?_, by decide +kernel⟩
  unfold NeverReturns
  decide +kernel

/-- A host that is in use for no time at all. -/
def HostMap.returning : HostMap (List (Observation Float)) :=
  HostMap.ofList [
    ("node1", [
      { time := 0.0, state := .idle, slots := 4, slotsUsed := 0, memory := 8.0,
        memoryUsed := 0.0 },
      { time := 1.0, state := .used, slots := 4, slotsUsed := 2, memory := 8.0,
        memoryUsed := 2.0 },
      { time := 1.0, state := .idle, slots := 4, slotsUsed := 0, memory := 8.0,
        memoryUsed := 0.0 }])]

/-- What takes the place of the report in use repeats what was retained before, which only the
second time is noticed. -/
theorem exists_not_isSettled : ∃ (criteria : Criteria) (hosts : HostMap (List (Observation Float))),
    (∀ observations ∈ hosts.values, ∀ observation ∈ observations,
      observation.time.isFinite = true) ∧
    (condenseHosts criteria (condenseHosts criteria hosts).1).2 = 1 ∧
    ¬ criteria.IsSettled (condenseHosts criteria hosts).1 := by
  have again : (condenseHosts everyField (condenseHosts everyField HostMap.returning).1).2 = 1 := by
    decide +kernel
  refine ⟨everyField, HostMap.returning, by decide +kernel, again, fun settled => ?_⟩
  rw [IsSettled, again] at settled
  exact absurd settled.1 Nat.one_ne_zero

end HostTimeline
