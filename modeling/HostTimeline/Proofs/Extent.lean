import HostTimeline.Proofs.Number.Linear
import HostTimeline.Proofs.TimeGrid

/-!
The span from the first to the last of the observed times.  It is told by the times alone, not
by the order they come in (`covering?_eq_of_perm`), and a window that asks for exactly this span
is resolved to it (`Window.resolve_window`).
-/

namespace HostTimeline

variable {α : Type} [Scalar α]

/-- Whether a time lies between the ends of a span, in the order that sorting uses. -/
def Span.Encloses (span : Span α) (time : α) : Prop :=
  Scalar.precedes span.start time = true ∧ Scalar.precedes time span.stop = true

/-- The first and the last of the times, in the order that sorting uses. -/
structure Span.IsExtent (span : Span α) (times : List α) : Prop where
  start_mem : span.start ∈ times
  stop_mem : span.stop ∈ times
  encloses : ∀ time ∈ times, span.Encloses time

/-- The window that asks for both ends of a span. -/
def Span.window (span : Span α) : Window α where
  earliest := some span.start
  latest := some span.stop

theorem Span.IsExtent.of_perm {span : Span α} {times others : List α} (extent : span.IsExtent times)
    (same : times.Perm others) : span.IsExtent others where
  start_mem := same.mem_iff.mp extent.start_mem
  stop_mem := same.mem_iff.mp extent.stop_mem
  encloses time member := extent.encloses time (same.mem_iff.mpr member)

theorem Span.IsExtent.flatMap {β : Type} {span : Span α} {items : List β} {times : β → List α}
    (nonempty : items ≠ []) (each : ∀ item ∈ items, span.IsExtent (times item)) :
    span.IsExtent (items.flatMap times) := by
  obtain ⟨item, member⟩ := List.exists_mem_of_ne_nil items nonempty
  constructor
  · exact List.mem_flatMap.mpr ⟨item, member, (each item member).start_mem⟩
  · exact List.mem_flatMap.mpr ⟨item, member, (each item member).stop_mem⟩
  · intro time found
    obtain ⟨other, otherMember, inside⟩ := List.mem_flatMap.mp found
    exact (each other otherMember).encloses time inside

theorem Window.resolve_window_nil {window : Window α} {span : Span α}
    (resolved : window.resolve [] = .ok span) : span.window.resolve [] = .ok span := by
  obtain ⟨_, latest, ordered⟩ := ends_of_unobserved resolved
  have unobserved : Span.covering? ([] : List α) = none := rfl
  have earliest : span.window.earliest = some span.start := rfl
  have asked : span.window.latestAsked = some span.stop :=
    Option.filter_eq_some_iff.mpr ⟨rfl, (Option.filter_eq_some_iff.mp latest).2⟩
  unfold Window.resolve
  simp only [unobserved, earliest, asked]
  exact if_neg ordered

namespace Span

open OrderedScalar

variable [OrderedScalar α] {span : Span α}

theorem encloses_extend (time : α) : (covering?.extend span time).Encloses time := by
  unfold covering?.extend
  constructor
  · simp only
    split
    next before => exact before
    · exact precedes_refl time
  · simp only
    split
    next before => exact before
    · exact precedes_refl time

theorem Encloses.extend {other : α} (encloses : span.Encloses other) (time : α) :
    (covering?.extend span time).Encloses other := by
  unfold covering?.extend
  constructor
  · simp only
    split
    · exact encloses.1
    next after => exact precedes_trans (precedes_of_not_precedes after) encloses.1
  · simp only
    split
    · exact encloses.2
    next after => exact precedes_trans encloses.2 (precedes_of_not_precedes after)

theorem Encloses.foldl {time : α} (encloses : span.Encloses time) (rest : List α) :
    (rest.foldl covering?.extend span).Encloses time := by
  induction rest generalizing span with
  | nil => exact encloses
  | cons next rest ih => exact ih (encloses.extend next)

theorem encloses_foldl {time : α} {rest : List α} (member : time ∈ rest) :
    (rest.foldl covering?.extend span).Encloses time := by
  induction rest generalizing span with
  | nil => cases member
  | cons next rest ih =>
      rcases List.mem_cons.mp member with rfl | later
      · exact (encloses_extend time).foldl rest
      · exact ih later

theorem isExtent_covering? {times : List α} (covered : covering? times = some span) :
    span.IsExtent times := by
  obtain ⟨start, stop⟩ := covering?_mem covered
  refine ⟨start, stop, ?_⟩
  cases times with
  | nil => cases covered
  | cons first rest =>
      cases covered
      intro time member
      rcases List.mem_cons.mp member with rfl | later
      · exact Encloses.foldl ⟨precedes_refl time, precedes_refl time⟩ rest
      · exact encloses_foldl later

theorem exists_covering? {times : List α} {time : α} (member : time ∈ times) :
    ∃ span, covering? times = some span ∧ span.IsExtent times := by
  cases times with
  | nil => cases member
  | cons first rest => exact ⟨_, rfl, isExtent_covering? rfl⟩

end Span

variable [LinearScalar α] {span : Span α}

namespace Span

open LinearScalar

theorem IsExtent.unique {other : Span α} {times : List α} (extent : span.IsExtent times)
    (otherExtent : other.IsExtent times) : span = other := by
  have start := precedes_antisymm (extent.encloses _ otherExtent.start_mem).1
    (otherExtent.encloses _ extent.start_mem).1
  have stop := precedes_antisymm (otherExtent.encloses _ extent.stop_mem).2
    (extent.encloses _ otherExtent.stop_mem).2
  cases span
  cases other
  cases start
  cases stop
  rfl

theorem covering?_of_isExtent {times : List α} (extent : span.IsExtent times) :
    covering? times = some span := by
  obtain ⟨other, covered, otherExtent⟩ := exists_covering? extent.start_mem
  rw [covered, otherExtent.unique extent]

theorem covering?_eq_of_perm {times others : List α} (same : times.Perm others) :
    covering? times = covering? others := by
  cases covered : covering? times with
  | none =>
      cases times with
      | nil => rw [List.nil_perm.mp same, ← covered]
      | cons first rest => cases covered
  | some span =>
      exact (covering?_of_isExtent ((isExtent_covering? covered).of_perm same)).symm

end Span

namespace Window

open OrderedScalar

theorem resolve_eq_of_perm {times others : List α} (same : times.Perm others) (window : Window α) :
    window.resolve times = window.resolve others := by
  unfold resolve
  rw [Span.covering?_eq_of_perm same]

/-- Asking for what is there resolves to it. -/
theorem resolve_window {times : List α} (extent : span.IsExtent times)
    (ordered : span.start ≤ span.stop) : span.window.resolve times = .ok span := by
  have made : Span.ofEnds span.start span.stop = .ok span :=
    if_neg fun less => not_le_of_lt less ordered
  have latest {test : α → Bool} :
      (span.window.latestAsked.filter test).getD span.stop = span.stop := by
    -- A stop of zero or less is not asked for, but it is the last observation all the same.
    rcases getD_filter_cases span.window.latestAsked span.stop test with same | asked
    · exact same
    · exact (Option.some.inj (latest_of_latestAsked asked)).symm
  have earliest : (span.window.earliest.filter fun time => decide (span.start ≤ time)).getD
      span.start = span.start := by
    rcases getD_filter_cases span.window.earliest span.start
      (fun time => decide (span.start ≤ time)) with same | asked
    · exact same
    · exact (Option.some.inj asked).symm
  unfold resolve
  simp only [Span.covering?_of_isExtent extent, latest, earliest]
  split <;> exact made

end Window

end HostTimeline
