import HostTimeline.Proofs.Refill
import Mathlib

/-!
Sums over the time between consecutive items.  Each item counts until the next one, with the
value it has; the last one only ends the sum.
-/

namespace HostTimeline

variable {β γ σ κ : Type}

/-- The distance to the next item times the value, summed over the items. -/
def integral (position value : β → Rat) : List β → Rat
  | first :: next :: rest =>
      (position next - position first) * value first + integral position value (next :: rest)
  | _ => 0

@[simp]
theorem integral_nil (position value : β → Rat) : integral position value [] = 0 :=
  rfl

@[simp]
theorem integral_singleton (position value : β → Rat) (item : β) :
    integral position value [item] = 0 :=
  rfl

@[simp]
theorem integral_cons_cons (position value : β → Rat) (first next : β) (rest : List β) :
    integral position value (first :: next :: rest) =
      (position next - position first) * value first + integral position value (next :: rest) :=
  rfl

section Laws

variable {position value other : β → Rat}

theorem integral_congr {items : List β} (same : ∀ item ∈ items, value item = other item) :
    integral position value items = integral position other items := by
  induction items with
  | nil => rfl
  | cons first rest ih =>
      have later := ih fun item member => same item (List.mem_cons_of_mem first member)
      cases rest with
      | nil => rfl
      | cons next rest =>
          rw [integral_cons_cons, integral_cons_cons, later, same first List.mem_cons_self]

theorem integral_map (position value : β → Rat) (place : γ → β) (items : List γ) :
    integral position value (items.map place) =
      integral (fun item => position (place item)) (fun item => value (place item)) items := by
  induction items with
  | nil => rfl
  | cons first rest ih =>
      cases rest with
      | nil => rfl
      | cons next rest =>
          rw [List.map_cons, List.map_cons, integral_cons_cons, ← List.map_cons, ih]
          rfl

theorem integral_add (position value other : β → Rat) (items : List β) :
    integral position (fun item => value item + other item) items =
      integral position value items + integral position other items := by
  induction items with
  | nil => simp
  | cons first rest ih =>
      cases rest with
      | nil => simp
      | cons next rest =>
          simp only [integral_cons_cons, ih]
          ring

theorem integral_const_mul (position : β → Rat) (factor : Rat) (value : β → Rat)
    (items : List β) :
    integral position (fun item => factor * value item) items =
      factor * integral position value items := by
  induction items with
  | nil => simp
  | cons first rest ih =>
      cases rest with
      | nil => simp
      | cons next rest =>
          simp only [integral_cons_cons, ih]
          ring

@[simp]
theorem integral_zero (position : β → Rat) (items : List β) :
    integral position (fun _ => 0) items = 0 := by
  simpa using integral_const_mul position 0 (fun _ => 0) items

/-- Summing over keys first or over time first comes to the same. -/
theorem integral_sum (position : β → Rat) (value : κ → β → Rat) (keys : List κ)
    (items : List β) :
    integral position (fun item => (keys.map fun key => value key item).sum) items =
      (keys.map fun key => integral position (value key) items).sum := by
  induction keys with
  | nil => simp
  | cons key keys ih => simp only [List.map_cons, List.sum_cons, integral_add, ih]

theorem integral_one (position : β → Rat) {items : List β} {first last : β}
    (head : items.head? = some first) (tail : items.getLast? = some last) :
    integral position (fun _ => 1) items = position last - position first := by
  induction items generalizing first with
  | nil => cases head
  | cons item rest ih =>
      cases head
      cases rest with
      | nil =>
          cases tail
          simp
      | cons next rest =>
          rw [integral_cons_cons, ih rfl (by simpa using tail)]
          ring

theorem integral_mono {items : List β}
    (ascending : items.Pairwise fun left right => position left ≤ position right)
    (below : ∀ item ∈ items, value item ≤ other item) :
    integral position value items ≤ integral position other items := by
  induction items with
  | nil => exact le_rfl
  | cons first rest ih =>
      obtain ⟨later, ascendingRest⟩ := List.pairwise_cons.mp ascending
      have rest_le := ih ascendingRest fun item member =>
        below item (List.mem_cons_of_mem first member)
      cases rest with
      | nil => exact le_rfl
      | cons next rest =>
          have forward : 0 ≤ position next - position first :=
            sub_nonneg.mpr (later next List.mem_cons_self)
          have here := mul_le_mul_of_nonneg_left (below first List.mem_cons_self) forward
          exact add_le_add here rest_le

theorem integral_nonneg {items : List β}
    (ascending : items.Pairwise fun left right => position left ≤ position right)
    (nonneg : ∀ item ∈ items, 0 ≤ value item) : 0 ≤ integral position value items := by
  simpa using integral_mono ascending nonneg

end Laws

section Mean

variable {position value : β → Rat} {counts : β → Bool} {items : List β}

def timeOf (position : β → Rat) (counts : β → Bool) (items : List β) : Rat :=
  integral position (fun item => if counts item then 1 else 0) items

def areaOf (position value : β → Rat) (counts : β → Bool) (items : List β) : Rat :=
  integral position (fun item => if counts item then value item else 0) items

theorem timeOf_nonneg (ascending : items.Pairwise fun left right => position left ≤ position right) :
    0 ≤ timeOf position counts items := by
  refine integral_nonneg ascending fun item _ => ?_
  split <;> norm_num

/-- The least value that counts is at most the mean. -/
theorem exists_mul_timeOf_le
    (ascending : items.Pairwise fun left right => position left ≤ position right)
    (length : timeOf position counts items ≠ 0) : ∃ least ∈ items, counts least = true ∧
      value least * timeOf position counts items ≤ areaOf position value counts items := by
  have nonempty : items.filter counts ≠ [] := by
    intro none
    refine length ((integral_congr fun item member => ?_).trans (integral_zero position items))
    exact if_neg (List.filter_eq_nil_iff.mp none item member)
  obtain ⟨least, isLeast⟩ : ∃ least, (items.filter counts).argmin value = some least :=
    Option.ne_none_iff_exists'.mp (mt List.argmin_eq_none.mp nonempty)
  obtain ⟨member, counted⟩ := List.mem_filter.mp (List.argmin_mem isLeast)
  refine ⟨least, member, counted, ?_⟩
  rw [timeOf, ← integral_const_mul]
  refine integral_mono ascending fun item found => ?_
  split
  next also =>
    rw [mul_one]
    exact List.le_of_mem_argmin (List.mem_filter.mpr ⟨found, also⟩) isLeast
  · rw [mul_zero]

theorem exists_le_mul_timeOf
    (ascending : items.Pairwise fun left right => position left ≤ position right)
    (length : timeOf position counts items ≠ 0) : ∃ greatest ∈ items, counts greatest = true ∧
      areaOf position value counts items ≤ value greatest * timeOf position counts items := by
  obtain ⟨greatest, member, counted, le⟩ : ∃ greatest ∈ items, counts greatest = true ∧
      -value greatest * timeOf position counts items ≤
        areaOf position (fun item => -value item) counts items :=
    exists_mul_timeOf_le ascending length
  have negated : areaOf position (fun item => -value item) counts items =
      -areaOf position value counts items := by
    rw [areaOf, areaOf, neg_eq_neg_one_mul, ← integral_const_mul]
    refine integral_congr fun item _ => ?_
    split <;> simp
  rw [negated] at le
  exact ⟨greatest, member, counted, by linarith⟩

end Mean

/-- A fold sums up the time between the items if each step adds that since the item before. -/
theorem foldl_integral {position value : β → Rat} {advance : σ → β → σ} {isAt : σ → β → Prop}
    (amount : σ → Rat)
    (step : ∀ {state last} next, isAt state last → isAt (advance state next) next ∧
      amount (advance state next) = amount state + (position next - position last) * value last)
    {state : σ} {first : β} (here : isAt state first) (rest : List β) :
    amount (rest.foldl advance state) =
      amount state + integral position value (first :: rest) := by
  induction rest generalizing state first with
  | nil => simp
  | cons next rest ih =>
      obtain ⟨there, added⟩ := step next here
      rw [List.foldl_cons, ih there, added, integral_cons_cons, add_assoc]

/-- Repeating an item later on does not change the sum. -/
theorem Fills.integral_eq {position value : β → Rat} {moveTo : β → Rat → β} {current : β}
    {items filled : List β} (fills : Fills moveTo current items filled)
    (moved : ∀ item point, position (moveTo item point) = point)
    (kept : ∀ item point, value (moveTo item point) = value item) :
    integral position value (current :: filled) = integral position value (current :: items) := by
  induction fills with
  | done current => rfl
  | @again current next items filled point later ih =>
      -- The repeated item splits the time until what follows it in two.
      have follows : ∃ following rest, filled = following :: rest := by
        cases later <;> exact ⟨_, _, rfl⟩
      obtain ⟨following, rest, rfl⟩ := follows
      rw [← ih, integral_cons_cons, integral_cons_cons, integral_cons_cons, moved, kept]
      ring
  | reached current later ih => rw [integral_cons_cons, integral_cons_cons, ih]

end HostTimeline
