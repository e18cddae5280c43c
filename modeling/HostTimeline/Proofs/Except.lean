import Mathlib.Data.List.Forall2

/-!
Results of computations that can fail, taken apart step by step.  What is done item by item fails
on the first item that it can fail on (`mapM_error_iff`).
-/

namespace HostTimeline

/-- The first item of a list that passes a test. -/
inductive IsFirst {β : Type} (test : β → Prop) : List β → β → Prop where
  | here {item : β} (passes : test item) (rest : List β) : IsFirst test (item :: rest) item
  | later {other item : β} {rest : List β} (fails : ¬ test other)
      (first : IsFirst test rest item) : IsFirst test (other :: rest) item

namespace IsFirst

variable {β γ : Type} {test other : β → Prop} {items : List β} {item : β}

theorem passes (first : IsFirst test items item) : item ∈ items ∧ test item := by
  induction first with
  | here passes rest => exact ⟨List.mem_cons_self, passes⟩
  | later _ _ ih => exact ⟨List.mem_cons_of_mem _ ih.1, ih.2⟩

theorem exists_of_mem (member : item ∈ items) (passes : test item) :
    ∃ first, IsFirst test items first := by
  induction items with
  | nil => cases member
  | cons next rest ih =>
      by_cases here : test next
      · exact ⟨next, .here here rest⟩
      · rcases List.mem_cons.mp member with rfl | later
        · exact absurd passes here
        · obtain ⟨first, found⟩ := ih later
          exact ⟨first, .later here found⟩

theorem congr (first : IsFirst test items item) (same : ∀ item ∈ items, test item ↔ other item) :
    IsFirst other items item := by
  induction first with
  | here passes rest => exact .here ((same _ List.mem_cons_self).mp passes) rest
  | later fails _ ih =>
      exact .later ((same _ List.mem_cons_self).not.mp fails)
        (ih fun item member => same item (List.mem_cons_of_mem _ member))

theorem of_map {view : γ → β} {items : List γ} (first : IsFirst test (items.map view) item) :
    ∃ own, view own = item ∧ IsFirst (fun own => test (view own)) items own := by
  induction items with
  | nil => cases first
  | cons next rest ih =>
      cases first with
      | here passes =>
          refine ⟨next, rfl, .here ?_ rest⟩
          exact passes
      | later fails first =>
          obtain ⟨own, same, found⟩ := ih first
          exact ⟨own, same, .later fails found⟩

theorem map {view : γ → β} {items : List γ} {own : γ}
    (first : IsFirst (fun own => test (view own)) items own) :
    IsFirst test (items.map view) (view own) := by
  induction first with
  | here passes rest => exact .here passes _
  | later fails _ ih => exact .later fails ih

end IsFirst

variable {ε δ α β : Type}

theorem bind_ok {first : Except ε α} {next : α → Except ε β} {result : β}
    (done : (first >>= next) = .ok result) :
    ∃ value, first = .ok value ∧ next value = .ok result := by
  cases first with
  | error reason => cases done
  | ok value => exact ⟨value, rfl, done⟩

theorem bind_ok_iff {first : Except ε α} {next : α → Except ε β} {result : β} :
    (first >>= next) = .ok result ↔ ∃ value, first = .ok value ∧ next value = .ok result := by
  refine ⟨bind_ok, ?_⟩
  rintro ⟨value, rfl, done⟩
  exact done

theorem bind_error {first : Except ε α} {next : α → Except ε β} {reason : ε}
    (failed : (first >>= next) = .error reason) :
    first = .error reason ∨ ∃ value, first = .ok value ∧ next value = .error reason := by
  cases first with
  | error other =>
      cases failed
      exact .inl rfl
  | ok value => exact .inr ⟨value, rfl, failed⟩

theorem mapError_ok {first : Except ε α} {change : ε → δ} {value : α}
    (done : first.mapError change = .ok value) : first = .ok value := by
  cases first with
  | error reason => cases done
  | ok other =>
      cases done
      rfl

theorem mapError_ok_iff {first : Except ε α} {change : ε → δ} {value : α} :
    first.mapError change = .ok value ↔ first = .ok value := by
  refine ⟨mapError_ok, ?_⟩
  rintro rfl
  rfl

theorem eq_ok_of_toOption {result : Except ε α} {value : α}
    (found : result.toOption = some value) : result = .ok value := by
  cases result with
  | error reason => cases found
  | ok other =>
      cases found
      rfl

/-- If a step fails on an item, the first such item decides. -/
theorem mapM_error_iff {step : α → Except ε β} {items : List α} {reason : ε} :
    items.mapM step = .error reason ↔
      ∃ item, IsFirst (fun item => ∃ reason, step item = .error reason) items item ∧
        step item = .error reason := by
  induction items with
  | nil =>
      constructor
      · intro failed
        cases failed
      · rintro ⟨_, first, _⟩
        cases first
  | cons item rest ih =>
      rw [List.mapM_cons]
      cases stepped : step item with
      | error own =>
          constructor
          · intro failed
            cases failed
            exact ⟨item, .here ⟨reason, stepped⟩ rest, stepped⟩
          · rintro ⟨other, first, found⟩
            cases first with
            | here =>
                rw [stepped] at found
                cases found
                rfl
            | later fails => exact absurd ⟨own, stepped⟩ fails
      | ok value =>
          change (rest.mapM step >>= fun values => pure (value :: values)) = _ ↔ _
          constructor
          · intro failed
            rcases bind_error failed with later | ⟨values, _, failed⟩
            · obtain ⟨other, first, found⟩ := ih.mp later
              refine ⟨other, .later ?_ first, found⟩
              rintro ⟨own, failing⟩
              rw [stepped] at failing
              cases failing
            · cases failed
          · rintro ⟨other, first, found⟩
            cases first with
            | here =>
                rw [stepped] at found
                cases found
            | later _ first =>
                rw [ih.mpr ⟨other, first, found⟩]
                rfl

theorem mapM_error {step : α → Except ε β} {items : List α} {reason : ε}
    (failed : items.mapM step = .error reason) : ∃ item ∈ items, step item = .error reason := by
  obtain ⟨item, first, found⟩ := mapM_error_iff.mp failed
  exact ⟨item, first.passes.1, found⟩

theorem mapM_ok {step : α → Except ε β} {items : List α} {results : List β}
    (done : items.mapM step = .ok results) {item : α} (member : item ∈ items) :
    ∃ result ∈ results, step item = .ok result := by
  induction items generalizing results with
  | nil => cases member
  | cons first rest ih =>
      rw [List.mapM_cons] at done
      obtain ⟨value, stepped, done⟩ := bind_ok done
      obtain ⟨values, others, done⟩ := bind_ok done
      cases done
      rcases List.mem_cons.mp member with same | later
      · exact ⟨value, List.mem_cons_self, same ▸ stepped⟩
      · obtain ⟨result, found, taken⟩ := ih others later
        exact ⟨result, List.mem_cons_of_mem _ found, taken⟩

/-- Two computations that agree on related items agree on related lists. -/
theorem mapM_ok_unique {γ : Type} {step : α → Except ε β} {other : γ → Except δ β}
    {items : List α} {others : List γ}
    (related : List.Forall₂ (fun item next => ∀ left right, step item = .ok left →
      other next = .ok right → left = right) items others)
    {left right : List β} (done : items.mapM step = .ok left)
    (otherDone : others.mapM other = .ok right) : left = right := by
  induction related generalizing left right with
  | nil =>
      cases done
      cases otherDone
      rfl
  | cons here _ ih =>
      rw [List.mapM_cons] at done otherDone
      obtain ⟨first, taken, done⟩ := bind_ok done
      obtain ⟨rest, later, done⟩ := bind_ok done
      obtain ⟨otherFirst, otherTaken, otherDone⟩ := bind_ok otherDone
      obtain ⟨otherRest, otherLater, otherDone⟩ := bind_ok otherDone
      cases done
      cases otherDone
      rw [here first otherFirst taken otherTaken, ih later otherLater]

theorem exists_of_mem_mapM {step : α → Except ε β} {items : List α} {results : List β}
    (done : items.mapM step = .ok results) {result : β} (member : result ∈ results) :
    ∃ item ∈ items, step item = .ok result := by
  induction items generalizing results with
  | nil =>
      cases done
      cases member
  | cons first rest ih =>
      rw [List.mapM_cons] at done
      obtain ⟨value, stepped, done⟩ := bind_ok done
      obtain ⟨values, others, done⟩ := bind_ok done
      cases done
      rcases List.mem_cons.mp member with same | later
      · exact ⟨first, List.mem_cons_self, same ▸ stepped⟩
      · obtain ⟨item, found, taken⟩ := ih others later
        exact ⟨item, List.mem_cons_of_mem _ found, taken⟩

theorem map_eq_of_mapM {γ : Type} {step : α → Except ε β} {key : α → γ} {view : β → γ}
    (kept : ∀ item result, step item = .ok result → view result = key item) {items : List α}
    {results : List β} (done : items.mapM step = .ok results) :
    results.map view = items.map key := by
  induction items generalizing results with
  | nil =>
      cases done
      rfl
  | cons item rest ih =>
      rw [List.mapM_cons] at done
      obtain ⟨value, stepped, done⟩ := bind_ok done
      obtain ⟨values, others, done⟩ := bind_ok done
      cases done
      rw [List.map_cons, List.map_cons, kept item value stepped, ih others]

end HostTimeline
