import HostTimeline.Proofs.Clipping

/-!
Every host reaches over the whole span, and clipping loses none of the observations within it
(`Span.isClipped_clip`).  All that this takes is a span whose ends can be compared.  A NaN is
resolved to an end only where nothing at all was observed, and then it is the start
(`Window.comparable_resolve`).
-/

namespace HostTimeline

open OrderedScalar

variable {α : Type} [Scalar α]

/-- Observations that reach from the start of a span to its stop, and are those within it but
for the times of the first and the last.  Without any the host is unknown at both ends, and a
single one is made at both. -/
structure Span.IsClipped (span : Span α) (observations clipped : List (Observation α)) : Prop where
  ascends : clipped.Pairwise fun left right => left.time ≤ right.time
  within : ∀ observation ∈ clipped,
    span.start ≤ observation.time ∧ observation.time ≤ span.stop
  first : ∃ first, clipped.head? = some first ∧ first.time = span.start
  last : ∃ last, clipped.getLast? = some last ∧ (last.time == span.stop) = true
  none : span.observed observations = [] → clipped =
    if span.start == span.stop then [Observation.vacant span.start .unknown]
    else [Observation.vacant span.start .unknown, Observation.vacant span.stop .unknown]
  single : ∀ only, span.observed observations = [only] → clipped =
    if span.start < span.stop then [only.moveTo span.start, only.moveTo span.stop]
    else [only.moveTo span.start]
  several : ∀ first middle last, span.observed observations = first :: (middle ++ [last]) →
    clipped = first.moveTo span.start :: (middle ++ [last.moveTo span.stop])

/-- Every host spans the window, and is what was observed of it there. -/
def Timeline.SpansHosts (timeline : Timeline α) (hosts : HostMap (List (Observation α))) : Prop :=
  ∀ name observations, hosts.find? name = some observations → ∃ track ∈ timeline.tracks,
    track.name = name ∧ timeline.grid.span.IsClipped observations track.observations

theorem Span.map_ends {β : Type} (span : Span α) (place : α → β) : span.ends.map place =
    if span.start < span.stop then [place span.start, place span.stop] else [place span.start] := by
  unfold ends
  split <;> rfl

/-- Clipping moves observations to the ends and leaves the others as they were. -/
theorem Span.mem_clip {span : Span α} {observations : List (Observation α)}
    {observation : Observation α} (member : observation ∈ span.clip observations) :
    observation.time = span.start ∨ observation.time = span.stop ∨
      observation ∈ span.observed observations := by
  rcases span.clip_cases observations with
    ⟨place, timed, clipped⟩ | ⟨first, middle, last, events, clipped⟩
  · rw [clipped] at member
    obtain ⟨time, found, rfl⟩ := List.mem_map.mp member
    rw [timed]
    exact (mem_ends found).imp_right .inl
  · rw [clipped] at member
    rcases List.mem_cons.mp member with rfl | later
    · exact .inl rfl
    · rcases List.mem_append.mp later with inner | isLast
      · refine .inr (.inr ?_)
        rw [events]
        exact List.mem_cons_of_mem first (List.mem_append_left _ inner)
      · rw [List.mem_singleton.mp isLast]
        exact .inr (.inl rfl)

namespace Window

theorem comparable_getD_filter {asked : Option α} {fallback : α} {test : α → Bool}
    (comparable : fallback ≤ fallback) (tested : ∀ time, test time = true → time ≤ time) :
    (asked.filter test).getD fallback ≤ (asked.filter test).getD fallback := by
  cases found : asked.filter test with
  | none => exact comparable
  | some time => exact tested time (Option.filter_eq_some_iff.mp found).2

end Window

variable [OrderedScalar α]

namespace Span

variable {span : Span α}

theorem not_lt_iff_beq (ordered : span.start ≤ span.stop) :
    ¬ span.start < span.stop ↔ (span.start == span.stop) = true :=
  ⟨(lt_or_beq_of_le ordered).resolve_left, fun same less => not_beq_of_lt less same⟩

theorem within_clip (ordered : span.start ≤ span.stop) {observations : List (Observation α)}
    {observation : Observation α} (member : observation ∈ span.clip observations) :
    span.start ≤ observation.time ∧ observation.time ≤ span.stop := by
  obtain ⟨startComparable, stopComparable⟩ := le_self_of_le ordered
  rcases mem_clip member with atStart | atStop | observed
  · rw [atStart]
    exact ⟨startComparable, ordered⟩
  · rw [atStop]
    exact ⟨ordered, stopComparable⟩
  · exact le_of_mem_observed observed

theorem isClipped_clip (ordered : span.start ≤ span.stop) (observations : List (Observation α)) :
    span.IsClipped observations (span.clip observations) := by
  constructor
  · exact clip_ascends ordered observations
  · exact fun _ => within_clip ordered
  · obtain ⟨first, rest, clipped, atStart⟩ := span.clip_exists observations
    exact ⟨first, by rw [clipped, List.head?_cons], atStart⟩
  · exact getLast?_clip ordered observations
  · intro events
    rw [span.clip_of_none events, map_ends]
    by_cases less : span.start < span.stop
    · rw [if_pos less, if_neg (mt (not_lt_iff_beq ordered).mpr (not_not.mpr less))]
    · rw [if_neg less, if_pos ((not_lt_iff_beq ordered).mp less)]
  · intro only events
    rw [span.clip_of_one events, map_ends]
  · exact fun _ _ _ => span.clip_of_two

theorem IsClipped.comparable_start {observations clipped : List (Observation α)}
    (isClipped : span.IsClipped observations clipped) : span.start ≤ span.start := by
  obtain ⟨first, head, _⟩ := isClipped.first
  obtain ⟨reached, _⟩ := isClipped.within first (List.mem_of_head? head)
  exact (le_self_of_le reached).1

end Span

namespace Window

variable {window : Window α} {times : List α} {span : Span α}

theorem comparable_latestAsked {time : α} (asked : window.latestAsked = some time) :
    time ≤ time := by
  have positive := of_decide_eq_true (Option.filter_eq_some_iff.mp asked).2
  exact (le_self_of_le (le_of_lt positive)).2

/-- An end of a resolved span that cannot be compared was asked for, where nothing was observed. -/
theorem comparable_resolve (timesComparable : ∀ time ∈ times, time ≤ time)
    (known : times = [] → ∀ time ∈ window.earliest, time ≤ time)
    (resolved : window.resolve times = .ok span) :
    span.start ≤ span.start ∧ span.stop ≤ span.stop := by
  unfold resolve at resolved
  split at resolved
  next observed covered =>
    obtain ⟨startMember, stopMember⟩ := Span.covering?_mem covered
    have startComparable := timesComparable _ startMember
    have stopComparable := timesComparable _ stopMember
    split at resolved
    · obtain ⟨rfl, _⟩ := Span.ofEnds_eq resolved
      exact ⟨startComparable, comparable_getD_filter stopComparable fun time later =>
        (le_self_of_le (of_decide_eq_true later)).2⟩
    · obtain ⟨rfl, _⟩ := Span.ofEnds_eq resolved
      exact ⟨comparable_getD_filter startComparable fun time later =>
          (le_self_of_le (of_decide_eq_true later)).2,
        comparable_getD_filter stopComparable fun time earlier =>
          (le_self_of_le (of_decide_eq_true earlier)).1⟩
  next uncovered =>
    have nothing : times = [] := by
      cases times with
      | nil => rfl
      | cons time rest => cases uncovered
    split at resolved
    next start stop earliest latest =>
      obtain ⟨rfl, _⟩ := Span.ofEnds_eq resolved
      exact ⟨known nothing start earliest, comparable_latestAsked latest⟩
    · cases resolved

end Window

/-- There are hosts, none of them was observed, and the window begins at a NaN. -/
structure Window.BeginsNowhere (window : Window Float)
    (hosts : HostMap (List (Observation Float))) : Prop where
  nonempty : hosts.values ≠ []
  unobserved : ∀ observations ∈ hosts.values, observations = []
  earliest : ∃ earliest ∈ window.earliest, earliest.isNaN = true

namespace Timeline

variable {window : Window Float} {hosts : HostMap (List (Observation Float))}
  {timeline : Timeline Float}

theorem spansHosts_of_ordered (built : Timeline.build window hosts = .ok timeline)
    (ordered : timeline.grid.span.start ≤ timeline.grid.span.stop) : timeline.SpansHosts hosts := by
  intro name observations found
  refine ⟨Track.build timeline.grid name observations, ?_, rfl,
    Span.isClipped_clip ordered observations⟩
  rw [(build_eq built).2]
  exact List.mem_map_of_mem (hosts.perm_sorted.mem_iff.mpr (HostMap.mem_of_find? found))

theorem times_eq_nil_iff : (hosts.values.flatMap fun observations =>
    observations.map Observation.time) = [] ↔ ∀ observations ∈ hosts.values, observations = [] := by
  simp only [List.flatMap_eq_nil_iff, List.map_eq_nil_iff]

/-- No observation is made at a NaN, where the span begins if that is all there is to go by. -/
theorem not_spansHosts (built : Timeline.build window hosts = .ok timeline)
    (nowhere : window.BeginsNowhere hosts) : ¬ timeline.SpansHosts hosts := by
  intro spans
  obtain ⟨resolved, _⟩ := TimeGrid.build_eq (build_eq built).1
  rw [times_eq_nil_iff.mpr nowhere.unobserved] at resolved
  obtain ⟨earliest, asked, undefined⟩ := nowhere.earliest
  rw [(Window.ends_of_unobserved resolved).1, Option.mem_some] at asked
  obtain ⟨observations, member⟩ := List.exists_mem_of_ne_nil _ nowhere.nonempty
  obtain ⟨entry, found, rfl⟩ := List.mem_map.mp member
  obtain ⟨track, _, _, isClipped⟩ := spans entry.1 entry.2 (lookup_of_mem hosts.distinct found)
  have number := (Binary64.le_iff.mp isClipped.comparable_start).1
  rw [asked, undefined] at number
  cases number

theorem spansHosts_iff (timesFinite : ∀ observations ∈ hosts.values, ∀ observation ∈ observations,
      observation.time.isFinite = true)
    (built : Timeline.build window hosts = .ok timeline) :
    timeline.SpansHosts hosts ↔ ¬ window.BeginsNowhere hosts := by
  refine ⟨fun spans nowhere => not_spansHosts built nowhere spans, fun somewhere => ?_⟩
  intro name observations found
  obtain ⟨gridBuilt, _⟩ := build_eq built
  have known : (hosts.values.flatMap fun observations => observations.map Observation.time) = [] →
      ∀ time ∈ window.earliest, time ≤ time := by
    intro nothing time asked
    have number : time.isNaN = false := Bool.eq_false_iff.mpr fun undefined => somewhere
      { nonempty := List.ne_nil_of_mem (HostMap.mem_values_of_find? found)
        unobserved := times_eq_nil_iff.mp nothing
        earliest := ⟨time, asked, undefined⟩ }
    exact Binary64.le_iff.mpr ⟨number, number, Int.le_refl _⟩
  obtain ⟨start, stop⟩ := Window.comparable_resolve
    (fun time member => Binary64.le_self_of_isFinite (isFinite_times timesFinite time member))
    known (TimeGrid.build_eq gridBuilt).1
  exact spansHosts_of_ordered built (TimeGrid.start_le_stop_build gridBuilt start stop) name
    observations found

/-- Hosts that were observed often, once and never before the window ends. -/
def seldomSeen : HostMap (List (Observation Float)) :=
  HostMap.ofList [
    ("node1", [
      { time := 9.0, state := .off, slots := 4, slotsUsed := 0, memory := 8.0, memoryUsed := 0.0 },
      { time := 3.0, state := .idle, slots := 4, slotsUsed := 0, memory := 8.0, memoryUsed := 0.0 },
      { time := 1.0, state := .used, slots := 4, slotsUsed := 2, memory := 8.0, memoryUsed := 2.0 }]),
    ("node2", [
      { time := 2.0, state := .off, slots := 4, slotsUsed := 0, memory := 8.0, memoryUsed := 0.0 }]),
    ("node3", [])]

theorem spansHosts_iff_seldom_seen :
    ∃ timeline, Timeline.build { latest := some 5.0 } seldomSeen = .ok timeline ∧
      timeline.grid.points = [1.0, 2.0, 5.0] ∧ timeline.SpansHosts seldomSeen := by
  have points : (Timeline.build { latest := some 5.0 } seldomSeen).toOption.map
      (fun timeline => timeline.grid.points) = some [1.0, 2.0, 5.0] := by decide +kernel
  obtain ⟨timeline, found, shown⟩ := Option.map_eq_some_iff.mp points
  have built := eq_ok_of_toOption found
  refine ⟨timeline, built, shown, (spansHosts_iff (by decide +kernel) built).mpr fun nowhere => ?_⟩
  obtain ⟨earliest, asked, _⟩ := nowhere.earliest
  cases asked

/-- A window from a NaN to 100. -/
def windowFromNaN : Window Float where
  earliest := some Float.nan
  latest := some 100.0

/-- A host without observations is unknown at the NaN alone, and not at 100. -/
theorem exists_not_spansHosts : ∃ timeline,
    Timeline.build windowFromNaN (HostMap.ofList [("node1", [])]) = .ok timeline ∧
      timeline.tracks.map (fun track => track.observations.length) = [1] ∧
      (timeline.grid.span.start == timeline.grid.span.stop) = false ∧
      ¬ timeline.SpansHosts (HostMap.ofList [("node1", [])]) := by
  have nowhere : windowFromNaN.BeginsNowhere (HostMap.ofList [("node1", [])]) :=
    { nonempty := List.cons_ne_nil _ _
      unobserved := by decide +kernel
      earliest := ⟨_, rfl, by decide +kernel⟩ }
  have built : Timeline.build windowFromNaN (HostMap.ofList [("node1", [])]) = .ok _ := rfl
  exact ⟨_, built, rfl, by decide +kernel, not_spansHosts built nowhere⟩

end Timeline

end HostTimeline
