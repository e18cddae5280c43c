import HostTimeline.Proofs.Document
import HostTimeline.Proofs.Extent
import HostTimeline.Proofs.Retained

/-!
The order of the input does not matter.  Hosts may be visited in any order
(`Timeline.build_eq_of_perm`), and sorting every host's observations first changes nothing
(`Timeline.build_sortByTime`), so they may come in any order that sorting undoes: any, if no two
of them were made at the same time (`HostMap.reorders_of_perm`).
-/

namespace HostTimeline

open Observation

variable {α : Type}

theorem HostMap.perm_times {left right : HostMap (List (Observation α))}
    (same : left.entries.Perm right.entries) :
    (left.values.flatMap fun observations => observations.map Observation.time).Perm
      (right.values.flatMap fun observations => observations.map Observation.time) :=
  (same.map Prod.snd).flatMap_right _

variable [Scalar α]

/-- Every host's observations ascending by time. -/
def HostMap.sortByTime (hosts : HostMap (List (Observation α))) :
    HostMap (List (Observation α)) :=
  hosts.map fun _ => Observation.sortByTime

/-- The same hosts, in any order, each with the same observations, up to what sorting undoes. -/
def HostMap.Reorders (left right : HostMap (List (Observation α))) : Prop :=
  left.sortByTime.entries.Perm right.sortByTime.entries

theorem Span.clip_congr {span : Span α} {left right : List (Observation α)}
    (same : span.observed left = span.observed right) : span.clip left = span.clip right := by
  unfold observed at same
  unfold clip
  simp only [same]

theorem HostMap.perm_times_sortByTime (hosts : HostMap (List (Observation α))) :
    (hosts.sortByTime.values.flatMap fun observations => observations.map Observation.time).Perm
      (hosts.values.flatMap fun observations => observations.map Observation.time) := by
  rw [sortByTime, values_map, List.flatMap_map]
  exact List.Perm.flatMap_left _ fun observations _ => (perm_stableSort observations).map _

variable [LinearScalar α]

open OrderedScalar LinearScalar

theorem Observation.sortByTime_eq_of_perm {left right : List (Observation α)}
    (same : left.Perm right) (distinct : (left.map Observation.time).Nodup) :
    Observation.sortByTime left = Observation.sortByTime right :=
  sortOn_eq_of_perm same distinct

theorem Observation.sortByTime_sortByTime (observations : List (Observation α)) :
    Observation.sortByTime (Observation.sortByTime observations) =
      Observation.sortByTime observations :=
  stableSort_eq_self (pairwise_precedes_sortOn Observation.time observations)

theorem Span.clip_sortByTime (span : Span α) (observations : List (Observation α)) :
    span.clip (Observation.sortByTime observations) = span.clip observations := by
  refine clip_congr ?_
  rw [observed, observed, filter_sortByTime, sortByTime_sortByTime]

theorem TimeGrid.build_eq_of_perm {times others : List α} (same : times.Perm others)
    (window : Window α) : TimeGrid.build window times = TimeGrid.build window others := by
  have distinctTimes (span : Span α) : distinctTimes span times = distinctTimes span others :=
    congrArg List.eraseReps (sort_eq_of_perm (same.filter span.contains))
  unfold TimeGrid.build
  rw [Window.resolve_eq_of_perm same]
  simp only [ofSpan, distinctTimes]

namespace Timeline

theorem build_eq_of_perm {left right : HostMap (List (Observation α))}
    (same : left.entries.Perm right.entries) (window : Window α) :
    Timeline.build window left = Timeline.build window right := by
  unfold Timeline.build
  simp only [TimeGrid.build_eq_of_perm (HostMap.perm_times same), HostMap.sorted_eq_of_perm same]

theorem build_sortByTime (window : Window α) (hosts : HostMap (List (Observation α))) :
    Timeline.build window hosts.sortByTime = Timeline.build window hosts := by
  have tracks (grid : TimeGrid α) :
      (hosts.sortByTime.sorted.map fun host => Track.build grid host.1 host.2) =
        hosts.sorted.map fun host => Track.build grid host.1 host.2 := by
    rw [HostMap.sortByTime, HostMap.sorted_map, List.map_map]
    refine List.map_congr_left fun host _ => ?_
    unfold Track.build
    simp only [Function.comp, Span.clip_sortByTime]
  unfold Timeline.build
  simp only [TimeGrid.build_eq_of_perm hosts.perm_times_sortByTime, tracks]

theorem build_eq_of_reorders {left right : HostMap (List (Observation α))}
    (same : left.Reorders right) (window : Window α) :
    Timeline.build window left = Timeline.build window right := by
  rw [← build_sortByTime window left, build_eq_of_perm same, build_sortByTime]

end Timeline

theorem map_sortByTime_eq {left right : Option (List (Observation α))}
    (same : Option.Rel List.Perm left right)
    (distinct : ∀ observations ∈ left, (observations.map Observation.time).Nodup) :
    left.map Observation.sortByTime = right.map Observation.sortByTime := by
  cases same with
  | none => rfl
  | some same => exact congrArg some (sortByTime_eq_of_perm same (distinct _ rfl))

theorem HostMap.reorders_of_perm {left right : HostMap (List (Observation α))}
    (same : ∀ name, Option.Rel List.Perm (left.find? name) (right.find? name))
    (distinct : ∀ observations ∈ left.values, (observations.map Observation.time).Nodup) :
    left.Reorders right := by
  refine perm_of_find? fun name => ?_
  rw [sortByTime, sortByTime, find?_map, find?_map]
  refine map_sortByTime_eq (same name) fun observations found => ?_
  exact distinct observations (mem_values_of_find? found)

namespace Criteria

theorem condense_sortByTime (criteria : Criteria) (observations : List (Observation α)) :
    criteria.condense (Observation.sortByTime observations) = criteria.condense observations := by
  unfold condense
  rw [sortByTime_sortByTime]

theorem dropped_sortByTime (criteria : Criteria) (observations : List (Observation α)) :
    criteria.dropped (Observation.sortByTime observations) = criteria.dropped observations := by
  have length : (Observation.sortByTime observations).length = observations.length :=
    length_stableSort observations
  unfold dropped
  rw [condense_sortByTime, length]

end Criteria

theorem condenseHosts_reorders (criteria : Criteria) {left right : HostMap (List (Observation α))}
    (same : left.Reorders right) :
    (condenseHosts criteria left).1.entries.Perm (condenseHosts criteria right).1.entries ∧
      (condenseHosts criteria left).2 = (condenseHosts criteria right).2 := by
  have condensed (hosts : HostMap (List (Observation α))) :
      (condenseHosts criteria hosts).1.entries =
        hosts.sortByTime.entries.map fun entry => (entry.1, criteria.condense entry.2) := by
    refine List.map_congr_left (fun entry _ => ?_) |>.trans List.map_map.symm
    exact congrArg (Prod.mk entry.1) (criteria.condense_sortByTime entry.2).symm
  have counted (hosts : HostMap (List (Observation α))) : (condenseHosts criteria hosts).2 =
      (hosts.sortByTime.values.map criteria.dropped).sum := by
    rw [HostMap.sortByTime, HostMap.values_map, List.map_map]
    simp only [Function.comp_def, criteria.dropped_sortByTime]
    exact List.sum_eq_foldl.symm
  rw [condensed, condensed, counted, counted]
  exact ⟨same.map _, ((same.map Prod.snd).map _).sum_eq⟩

namespace Report

theorem build_eq_of_reorders {left right : Document α} (windows : left.window = right.window)
    (same : left.hosts.Reorders right.hosts) (window : Window α) (criteria : Option Criteria) :
    Report.build left window criteria = Report.build right window criteria := by
  unfold Report.build
  cases criteria with
  | none =>
      simp only [Document.condense, windows, Timeline.build_eq_of_reorders same]
  | some criteria =>
      obtain ⟨entries, dropped⟩ := condenseHosts_reorders criteria same
      simp only [Document.condense, windows, Timeline.build_eq_of_perm entries, dropped]

end Report

/-- States are counted the same way in whatever order the hosts are visited. -/
theorem Timeline.stateChart_eq_of_perm {α : Type} [Scalar α] {timeline : Timeline α}
    {tracks : List (Track α)} (same : tracks.Perm timeline.tracks) :
    Timeline.stateChart { timeline with tracks } = timeline.stateChart := by
  have counts (state : PowerState) (index : Nat) :
      hostsIn (tracks.map fun track => track.onGrid.toArray) state index =
        hostsIn (timeline.tracks.map fun track => track.onGrid.toArray) state index :=
    (same.map _).countP_eq _
  unfold stateChart
  simp only [counts]

theorem Report.build_eq_of_reordered {left right : Document Float}
    (windows : left.window = right.window)
    (hosts : ∀ name, Option.Rel List.Perm (left.hosts.find? name) (right.hosts.find? name))
    (distinct : ∀ observations ∈ left.hosts.values, (observations.map Observation.time).Nodup)
    (window : Window Float) (criteria : Option Criteria) :
    Report.build left window criteria = Report.build right window criteria ∧
      ∀ report, Report.build left window criteria = .ok report →
        ∀ tracks, tracks.Perm report.timeline.tracks →
          Timeline.stateChart { report.timeline with tracks } = report.stateChart := by
  refine ⟨build_eq_of_reorders windows (HostMap.reorders_of_perm hosts distinct) window criteria, ?_⟩
  intro report built tracks same
  rw [(build_eq built).2.1]
  exact Timeline.stateChart_eq_of_perm same

/-- The hosts in the opposite order, each with its observations in the opposite order. -/
def HostMap.backwards (hosts : HostMap (List (Observation Float))) :
    HostMap (List (Observation Float)) where
  entries := (hosts.map fun _ => List.reverse).entries.reverse
  distinct := by
    rw [List.map_reverse, List.nodup_reverse]
    exact (hosts.map _).distinct

theorem HostMap.perm_backwards (hosts : HostMap (List (Observation Float))) (name : String) :
    Option.Rel List.Perm (hosts.find? name) (hosts.backwards.find? name) := by
  have reversed : hosts.backwards.entries.Perm (hosts.map fun _ => List.reverse).entries :=
    List.reverse_perm _
  rw [find?_eq_of_perm reversed, find?_map]
  cases hosts.find? name with
  | none => exact .none
  | some observations => exact .some observations.reverse_perm.symm

theorem Report.build_eq_of_reordered_two_hosts :
    (Report.build { hosts := Timeline.twoHosts } {} (some .everyField)).toOption.map
        (fun report => report.timeline.grid.points) = some [1.0, 2.0, 3.0] ∧
      Report.build { hosts := Timeline.twoHosts } {} (some .everyField) =
        Report.build { hosts := Timeline.twoHosts.backwards } {} (some .everyField) := by
  have distinct : ∀ observations ∈ Timeline.twoHosts.values,
      (observations.map Observation.time).Nodup := by decide +kernel
  obtain ⟨same, _⟩ := @build_eq_of_reordered { hosts := Timeline.twoHosts }
    { hosts := Timeline.twoHosts.backwards } rfl Timeline.twoHosts.perm_backwards distinct {}
    (some .everyField)
  exact ⟨by decide +kernel, same⟩

end HostTimeline
