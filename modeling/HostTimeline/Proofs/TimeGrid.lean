import HostTimeline.TimeGrid
import HostTimeline.Proofs.Except
import HostTimeline.Proofs.Number.Binary64
import HostTimeline.Proofs.Number.Distinct

/-!
The grid of a resolved window.  The ends of the span are its first and last point, and what
lies between them are observed times, however many of these the rejection of outliers leaves.
-/

namespace HostTimeline

variable {α : Type} [Scalar α]

namespace Span

theorem contains_iff {span : Span α} {time : α} :
    span.contains time = true ↔ span.start ≤ time ∧ time ≤ span.stop := by
  simp [contains]

theorem ofEnds_eq {start stop : α} {span : Span α} (resolved : ofEnds start stop = .ok span) :
    span = { start, stop } ∧ ¬ stop < start := by
  unfold ofEnds at resolved
  split at resolved
  · cases resolved
  next ordered =>
    cases resolved
    exact ⟨rfl, ordered⟩

theorem foldl_extend_mem {seen : List α} {span : Span α} (rest : List α)
    (members : span.start ∈ seen ∧ span.stop ∈ seen) :
    (rest.foldl covering?.extend span).start ∈ seen ++ rest ∧
      (rest.foldl covering?.extend span).stop ∈ seen ++ rest := by
  induction rest generalizing seen span with
  | nil => simpa using members
  | cons time rest ih =>
      have extended : (covering?.extend span time).start ∈ seen ++ [time] ∧
          (covering?.extend span time).stop ∈ seen ++ [time] := by
        simp only [covering?.extend, List.mem_append, List.mem_singleton]
        constructor
        · split
          · exact .inl members.1
          · exact .inr rfl
        · split
          · exact .inl members.2
          · exact .inr rfl
      simpa using ih extended

theorem covering?_mem {times : List α} {span : Span α} (covered : covering? times = some span) :
    span.start ∈ times ∧ span.stop ∈ times := by
  cases times with
  | nil => cases covered
  | cons first rest =>
      cases covered
      exact foldl_extend_mem rest (show _ ∈ [first] ∧ _ ∈ [first] by simp)

end Span

namespace Window

/-- The ends that are given can be compared. -/
structure IsComparable (window : Window α) : Prop where
  earliest : ∀ time ∈ window.earliest, time ≤ time
  latest : ∀ time ∈ window.latest, time ≤ time

theorem getD_filter_cases {β : Type} (asked : Option β) (fallback : β) (test : β → Bool) :
    (asked.filter test).getD fallback = fallback ∨
      asked = some ((asked.filter test).getD fallback) := by
  cases found : asked.filter test with
  | none => exact .inl rfl
  | some time => exact .inr (Option.eq_some_of_filter_eq_some found)

theorem latest_of_latestAsked {window : Window α} {time : α}
    (asked : window.latestAsked = some time) : window.latest = some time :=
  Option.eq_some_of_filter_eq_some asked

/-- Each end of the resolved span was observed or asked for. -/
theorem resolve_ends {window : Window α} {times : List α} {span : Span α}
    (resolved : window.resolve times = .ok span) :
    (span.start ∈ times ∨ window.earliest = some span.start) ∧
      (span.stop ∈ times ∨ window.latest = some span.stop) ∧ ¬ span.stop < span.start := by
  unfold resolve at resolved
  split at resolved
  next observed covered =>
    obtain ⟨startMember, stopMember⟩ := Span.covering?_mem covered
    split at resolved
    · obtain ⟨rfl, ordered⟩ := Span.ofEnds_eq resolved
      refine ⟨.inl startMember, ?_, ordered⟩
      rcases getD_filter_cases window.latestAsked observed.stop
        (fun latest => decide (observed.stop ≤ latest)) with same | asked
      · exact .inl (same.symm ▸ stopMember)
      · exact .inr (latest_of_latestAsked asked)
    · obtain ⟨rfl, ordered⟩ := Span.ofEnds_eq resolved
      refine ⟨?_, ?_, ordered⟩
      · rcases getD_filter_cases window.earliest observed.start
          (fun earliest => decide (observed.start ≤ earliest)) with same | asked
        · exact .inl (same.symm ▸ startMember)
        · exact .inr asked
      · rcases getD_filter_cases window.latestAsked observed.stop
          (fun latest => decide (latest ≤ observed.stop)) with same | asked
        · exact .inl (same.symm ▸ stopMember)
        · exact .inr (latest_of_latestAsked asked)
  · split at resolved
    next start stop earliest latest =>
      obtain ⟨rfl, ordered⟩ := Span.ofEnds_eq resolved
      exact ⟨.inr earliest, .inr (latest_of_latestAsked latest), ordered⟩
    · cases resolved

/-- Where nothing was observed, both ends were asked for. -/
theorem ends_of_unobserved {window : Window α} {span : Span α}
    (resolved : window.resolve [] = .ok span) :
    window.earliest = some span.start ∧ window.latestAsked = some span.stop ∧
      ¬ span.stop < span.start := by
  have unobserved : Span.covering? ([] : List α) = none := rfl
  unfold resolve at resolved
  simp only [unobserved] at resolved
  split at resolved
  next start stop earliest latest =>
    obtain ⟨rfl, ordered⟩ := Span.ofEnds_eq resolved
    exact ⟨earliest, latest, ordered⟩
  · cases resolved

end Window

theorem withoutOutliers_sublist (values : List α) : (withoutOutliers values).Sublist values := by
  unfold withoutOutliers
  split
  · exact .refl _
  · exact List.filter_sublist

namespace TimeGrid

theorem build_eq {window : Window α} {times : List α} {grid : TimeGrid α}
    (built : build window times = .ok grid) :
    window.resolve times = .ok grid.span ∧ grid = ofSpan grid.span times := by
  unfold build at built
  obtain ⟨span, resolved, built⟩ := bind_ok built
  cases built
  exact ⟨resolved, rfl⟩

theorem mem_of_mem_distinctTimes {span : Span α} {times : List α} {time : α}
    (found : time ∈ distinctTimes span times) :
    time ∈ times ∧ span.start ≤ time ∧ time ≤ span.stop := by
  have member := mem_stableSort.mp ((eraseReps_sublist _).subset found)
  exact ⟨(List.mem_filter.mp member).1, Span.contains_iff.mp (List.mem_filter.mp member).2⟩

theorem mem_betweenEnds {span : Span α} {points : List α} {point : α}
    (member : point ∈ betweenEnds span points) :
    point = span.start ∨ point = span.stop ∨ point ∈ points := by
  unfold betweenEnds at member
  split at member
  · exact .inl (List.mem_singleton.mp member)
  · rcases List.mem_cons.mp member with isStart | later
    · exact .inl isStart
    · rcases List.mem_append.mp later with inner | isStop
      · exact .inr (.inr ((List.tail_sublist points).subset ((List.dropLast_sublist _).subset inner)))
      · exact .inr (.inl (List.mem_singleton.mp isStop))

/-- Every grid point was observed or asked for. -/
theorem mem_build {window : Window α} {times : List α} {grid : TimeGrid α}
    (built : build window times = .ok grid) {point : α} (member : point ∈ grid.points) :
    point ∈ times ∨ window.earliest = some point ∨ window.latest = some point := by
  obtain ⟨resolved, made⟩ := build_eq built
  obtain ⟨start, stop, _⟩ := Window.resolve_ends resolved
  rw [made] at member
  rcases mem_betweenEnds member with isStart | isStop | inner
  · exact isStart ▸ start.elim .inl fun asked => .inr (.inl asked)
  · exact isStop ▸ stop.elim .inl fun asked => .inr (.inr asked)
  · exact .inl (mem_of_mem_distinctTimes ((withoutOutliers_sublist _).subset inner)).1

end TimeGrid

variable [OrderedScalar α]

open OrderedScalar

namespace Window

theorem resolve_start_le_stop {window : Window α} {times : List α} {span : Span α}
    (comparable : window.IsComparable) (timesComparable : ∀ time ∈ times, time ≤ time)
    (resolved : window.resolve times = .ok span) : span.start ≤ span.stop := by
  obtain ⟨start, stop, ordered⟩ := resolve_ends resolved
  exact le_of_not_lt (stop.elim (timesComparable _) (comparable.latest _))
    (start.elim (timesComparable _) (comparable.earliest _)) ordered

end Window

namespace TimeGrid

theorem start_le_stop_build {window : Window α} {times : List α} {grid : TimeGrid α}
    (built : build window times = .ok grid) (start : grid.span.start ≤ grid.span.start)
    (stop : grid.span.stop ≤ grid.span.stop) : grid.span.start ≤ grid.span.stop := by
  obtain ⟨_, _, notBefore⟩ := Window.resolve_ends (build_eq built).1
  exact le_of_not_lt stop start notBefore

theorem pairwise_distinctTimes (span : Span α) (times : List α) :
    (distinctTimes span times).Pairwise (· < ·) := by
  refine pairwise_lt_eraseReps (pairwise_sort ?_)
  intro time found
  exact (le_self_of_le (Span.contains_iff.mp (List.mem_filter.mp found).2).1).2

/-- Dropping the first and the last of ascending times within a span leaves those that are
neither its start nor its stop. -/
theorem between_of_mem_inner {span : Span α} {points : List α}
    (increasing : points.Pairwise (· < ·))
    (within : ∀ point ∈ points, span.start ≤ point ∧ point ≤ span.stop)
    {point : α} (inner : point ∈ points.tail.dropLast) :
    span.start < point ∧ point < span.stop := by
  cases points with
  | nil => cases inner
  | cons first rest =>
      obtain ⟨above, increasingRest⟩ := List.pairwise_cons.mp increasing
      rcases rest.eq_nil_or_concat with none | ⟨middle, last, split⟩
      · subst none
        cases inner
      · rw [List.concat_eq_append] at split
        subst split
        rw [List.tail_cons, List.dropLast_concat] at inner
        have below := (List.pairwise_append.mp increasingRest).2.2 point inner last (by simp)
        exact ⟨lt_of_le_of_lt (within first (by simp)).1 (above point (by simp [inner])),
          lt_of_lt_of_le below (within last (by simp)).2⟩

/-- A grid that ascends from the start of its span to its stop through observed times. -/
structure IsSpanned (grid : TimeGrid α) (times : List α) : Prop where
  start_le_stop : grid.span.start ≤ grid.span.stop
  increasing : grid.points.Pairwise (· < ·)
  first : grid.points.head? = some grid.span.start
  last : ∃ last, grid.points.getLast? = some last ∧ (last == grid.span.stop) = true
  single : grid.points.length = 1 ↔ (grid.span.start == grid.span.stop) = true
  inner : ∀ point ∈ grid.points.tail.dropLast,
    point ∈ times ∧ grid.span.start < point ∧ point < grid.span.stop

theorem IsSpanned.start_le_of_mem {grid : TimeGrid α} {times : List α}
    (spanned : grid.IsSpanned times) {point : α} (member : point ∈ grid.points) :
    grid.span.start ≤ point := by
  obtain ⟨rest, split⟩ := List.head?_eq_some_iff.mp spanned.first
  have increasing := spanned.increasing
  rw [split] at member increasing
  rcases List.mem_cons.mp member with isFirst | later
  · exact isFirst ▸ (le_self_of_le spanned.start_le_stop).1
  · exact le_of_lt ((List.pairwise_cons.mp increasing).1 point later)

theorem isSpanned_betweenEnds {span : Span α} {points times : List α}
    (ordered : span.start ≤ span.stop) (increasing : points.Pairwise (· < ·))
    (within : ∀ point ∈ points, point ∈ times ∧ span.start ≤ point ∧ point ≤ span.stop) :
    IsSpanned { span, points := betweenEnds span points } times := by
  unfold betweenEnds
  split
  next same =>
    exact
      { start_le_stop := ordered
        increasing := List.pairwise_singleton _ _
        first := rfl
        last := ⟨span.start, rfl, same⟩
        single := by simpa using same
        inner := by simp }
  next differ =>
    have less : span.start < span.stop := (lt_or_beq_of_le ordered).resolve_right differ
    have between : ∀ point ∈ points.tail.dropLast, span.start < point ∧ point < span.stop :=
      fun point => between_of_mem_inner increasing fun other member => (within other member).2
    have increasingInner : points.tail.dropLast.Pairwise (· < ·) :=
      increasing.sublist ((List.dropLast_sublist _).trans (List.tail_sublist _))
    refine
      { start_le_stop := ordered
        increasing := ?_
        first := rfl
        last := ⟨span.stop, by simp [List.getLast?_cons], beq_iff_le_le.mpr ?_⟩
        single := by simpa using differ
        inner := ?_ }
    · refine List.pairwise_cons.mpr ⟨?_, List.pairwise_append.mpr
        ⟨increasingInner, List.pairwise_singleton _ _, ?_⟩⟩
      · intro point member
        rcases List.mem_append.mp member with inner | isStop
        · exact (between point inner).1
        · exact List.mem_singleton.mp isStop ▸ less
      · intro point inner stop isStop
        exact List.mem_singleton.mp isStop ▸ (between point inner).2
    · exact ⟨(le_self_of_le ordered).2, (le_self_of_le ordered).2⟩
    · simp only [List.tail_cons, List.dropLast_concat]
      intro point inner
      have member := (List.tail_sublist points).subset ((List.dropLast_sublist _).subset inner)
      exact ⟨(within point member).1, between point inner⟩

theorem isSpanned_of_ordered {window : Window α} {times : List α} {grid : TimeGrid α}
    (built : build window times = .ok grid) (ordered : grid.span.start ≤ grid.span.stop) :
    grid.IsSpanned times := by
  have kept := withoutOutliers_sublist (distinctTimes grid.span times)
  rw [(build_eq built).2]
  exact isSpanned_betweenEnds ordered ((pairwise_distinctTimes _ _).sublist kept)
    fun point member => mem_of_mem_distinctTimes (kept.subset member)

theorem isSpanned_of_comparable {window : Window α} {times : List α} {grid : TimeGrid α}
    (comparable : window.IsComparable) (timesComparable : ∀ time ∈ times, time ≤ time)
    (built : build window times = .ok grid) : grid.IsSpanned times :=
  isSpanned_of_ordered built
    (Window.resolve_start_le_stop comparable timesComparable (build_eq built).1)

end TimeGrid

/-- The ends that are given are finite. -/
structure Window.IsFinite (window : Window Float) : Prop where
  earliest : ∀ time ∈ window.earliest, time.isFinite = true
  latest : ∀ time ∈ window.latest, time.isFinite = true

theorem Window.IsFinite.isComparable {window : Window Float} (finite : window.IsFinite) :
    window.IsComparable :=
  { earliest := fun time given => Binary64.le_self_of_isFinite (finite.earliest time given)
    latest := fun time given => Binary64.le_self_of_isFinite (finite.latest time given) }

theorem TimeGrid.build_isSpanned {window : Window Float} {times : List Float}
    {grid : TimeGrid Float} (windowFinite : window.IsFinite)
    (timesFinite : ∀ time ∈ times, time.isFinite = true)
    (built : TimeGrid.build window times = .ok grid) : grid.IsSpanned times :=
  isSpanned_of_comparable windowFinite.isComparable
    (fun time member => Binary64.le_self_of_isFinite (timesFinite time member)) built

theorem TimeGrid.build_isSpanned_narrowed :
    TimeGrid.IsSpanned { span := { start := 1.0, stop := 4.0 }, points := [1.0, 2.0, 4.0] }
      [5.0, 1.0, 2.0, 3.0, 2.0] :=
  build_isSpanned
    (show Window.IsFinite { latest := some 4.0 } from ⟨by simp, by decide +kernel⟩)
    (by decide +kernel) rfl

end HostTimeline
