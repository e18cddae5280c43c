import HostTimeline.Proofs.Alignment
import HostTimeline.Proofs.Number.Linear
import HostTimeline.Proofs.Outliers

/-!
What the rejection of outliers keeps, in exact arithmetic.  The quartiles are found by their
positions among the sorted values, and half of the values or more stand from the one to the other
(`Fences.exists_middle`).  The fences lie outside the quartiles and move along with the values
(`Fences.admits_ofValues_map`), so what is kept is one stretch of the sorted values with their
middle half in it (`keepsMiddle`).
-/

namespace HostTimeline

open OrderedScalar

namespace Fences

section Positions

variable {α : Type} [Scalar α] {values : List α}

theorem admits_iff {fences : Fences α} {value : α} :
    fences.admits value = true ↔ fences.lower ≤ value ∧ value ≤ fences.upper := by
  simp only [admits, Bool.and_eq_true, decide_eq_true_eq]

theorem getElem?_atOrLast (nonempty : values ≠ []) (position : Nat) :
    values[min position (values.length - 1)]? = some (atOrLast values position) := by
  have inside : min position (values.length - 1) < values.length := by
    have positive := List.length_pos_iff.mpr nonempty
    omega
  rw [atOrLast, List.getD_eq_getElem?_getD, List.getElem?_eq_getElem inside, Option.getD_some]

theorem atOrLast_map (nonempty : values ≠ []) (place : α → α) (position : Nat) :
    atOrLast (values.map place) position = place (atOrLast values position) := by
  have placed : (values.map place)[min position ((values.map place).length - 1)]? =
      some (atOrLast (values.map place) position) :=
    getElem?_atOrLast (mt List.map_eq_nil_iff.mp nonempty) position
  rw [List.length_map, List.getElem?_map, getElem?_atOrLast nonempty position] at placed
  exact (Option.some.inj placed).symm

theorem le_of_getElem? (comparable : ∀ value ∈ values, value ≤ value)
    (ascending : values.Pairwise (· ≤ ·)) {position later : Nat} (le : position ≤ later)
    {low high : α} (found : values[position]? = some low) (foundLater : values[later]? = some high) :
    low ≤ high := by
  rcases Nat.lt_or_eq_of_le le with less | rfl
  · obtain ⟨inside, rfl⟩ := List.getElem?_eq_some_iff.mp found
    obtain ⟨insideLater, rfl⟩ := List.getElem?_eq_some_iff.mp foundLater
    exact List.pairwise_iff_getElem.mp ascending _ _ inside insideLater less
  · obtain rfl := Option.some.inj (found.symm.trans foundLater)
    exact comparable low (List.mem_of_getElem? found)

theorem atOrLast_le (comparable : ∀ value ∈ values, value ≤ value)
    (ascending : values.Pairwise (· ≤ ·)) (nonempty : values ≠ []) {position later : Nat}
    (le : position ≤ later) : atOrLast values position ≤ atOrLast values later :=
  le_of_getElem? comparable ascending (by omega) (getElem?_atOrLast nonempty position)
    (getElem?_atOrLast nonempty later)

/-- What stands from one position of ascending values to another is between the values there. -/
theorem between_of_mem_slice (comparable : ∀ value ∈ values, value ≤ value)
    (ascending : values.Pairwise (· ≤ ·)) {low high : Nat} {value : α}
    (member : value ∈ (values.take (high + 1)).drop low) :
    atOrLast values low ≤ value ∧ value ≤ atOrLast values high := by
  obtain ⟨offset, found⟩ := List.getElem?_of_mem member
  rw [List.getElem?_drop, List.getElem?_take] at found
  split at found
  next upTo =>
    have inside := (List.getElem?_eq_some_iff.mp found).1
    have nonempty := List.ne_nil_of_mem (List.mem_of_getElem? found)
    exact ⟨le_of_getElem? comparable ascending (by omega) (getElem?_atOrLast nonempty low) found,
      le_of_getElem? comparable ascending (by omega) found (getElem?_atOrLast nonempty high)⟩
  · cases found

end Positions

/-- The values within the fences are one stretch of ascending values. -/
theorem exists_split_filter {α : Type} [Scalar α] [OrderedScalar α] (fences : Fences α)
    {values : List α} (ascending : values.Pairwise (· ≤ ·)) :
    ∃ below above, values = below ++ (values.filter fences.admits ++ above) := by
  induction ascending with
  | nil => exact ⟨[], [], rfl⟩
  | @cons first rest later ascendingRest ih =>
      obtain ⟨below, above, split⟩ := ih
      cases admitted : fences.admits first with
      | false =>
          refine ⟨first :: below, above, ?_⟩
          rw [List.filter_cons_of_neg (Bool.not_eq_true _ ▸ admitted), List.cons_append, ← split]
      | true =>
          -- All later values are above the lower fence too, so the upper one ends the stretch.
          have reached := (admits_iff.mp admitted).1
          have upper : (first :: rest).filter fences.admits =
              (first :: rest).takeWhile fun value => decide (value ≤ fences.upper) := by
            rw [takeWhile_reached fences.upper (List.pairwise_cons.mpr ⟨later, ascendingRest⟩)]
            refine List.filter_congr fun value member => ?_
            have above : fences.lower ≤ value := by
              rcases List.mem_cons.mp member with rfl | after
              · exact reached
              · exact le_trans reached (later value after)
            rw [admits, decide_eq_true above, Bool.true_and]
          exact ⟨[], _, by rw [upper, List.nil_append, List.takeWhile_append_dropWhile]⟩

section Exact

variable {values : List Rat}

theorem midpoint_eq (left right : Rat) : midpoint left right = (left + right) / 2 :=
  rfl

theorem ofQuartiles_eq (first third : Rat) : ofQuartiles first third =
    { lower := first - (third - first) * (3 / 2), upper := third + (third - first) * (3 / 2) } :=
  rfl

theorem between_midpoint {left right : Rat} (le : left ≤ right) :
    left ≤ midpoint left right ∧ midpoint left right ≤ right := by
  rw [midpoint_eq]
  constructor <;> linarith

/-- Half of the values or more stand from one quartile to the other. -/
theorem exists_middle (ascending : values.Pairwise (· ≤ ·)) (enough : 4 ≤ values.length) :
    ∃ middle : List Rat, middle.Sublist values ∧ values.length ≤ 2 * middle.length ∧
      ∀ value ∈ middle, (quartiles values).1 ≤ value ∧ value ≤ (quartiles values).2 := by
  have nonempty : values ≠ [] := List.ne_nil_of_length_pos (by omega)
  have comparable : ∀ value ∈ values, value ≤ value := fun _ _ => le_rfl
  have slice (low high : Nat) : ((values.take (high + 1)).drop low).Sublist values :=
    (List.drop_sublist _ _).trans (List.take_sublist _ _)
  have step (position : Nat) : atOrLast values position ≤ atOrLast values (position + 1) :=
    atOrLast_le comparable ascending nonempty (Nat.le_succ position)
  unfold quartiles
  by_cases whole : values.length % 4 = 0
  · -- A midpoint is not beyond the inner one of its two values.
    refine ⟨_, slice (values.length / 4 + 1) (values.length * 3 / 4), ?_, fun value member => ?_⟩
    · rw [List.length_drop, List.length_take]
      omega
    · obtain ⟨above, below⟩ := between_of_mem_slice comparable ascending member
      simp only [whole, if_true]
      exact ⟨(between_midpoint (step _)).2.trans above, below.trans (between_midpoint (step _)).1⟩
  · refine ⟨_, slice (values.length / 4 + 1) ((values.length * 3 + 3) / 4 + 1), ?_,
      fun value member => ?_⟩
    · rw [List.length_drop, List.length_take]
      omega
    · simp only [whole, if_false]
      exact between_of_mem_slice comparable ascending member

theorem admits_ofQuartiles {first third value : Rat} (above : first ≤ value)
    (below : value ≤ third) : (ofQuartiles first third).admits value = true := by
  rw [admits_iff, ofQuartiles_eq]
  constructor <;> linarith

variable {scale : Rat} (positive : 0 < scale) (shift : Rat)

theorem quartiles_map (nonempty : values ≠ []) (scale shift : Rat) :
    quartiles (values.map fun value => scale * value + shift) =
      (scale * (quartiles values).1 + shift, scale * (quartiles values).2 + shift) := by
  simp only [quartiles, List.length_map, atOrLast_map nonempty, midpoint_eq]
  split
  · congr 1 <;> ring
  · rfl

include positive

theorem rescaled_le_iff {left right : Rat} :
    scale * left + shift ≤ scale * right + shift ↔ left ≤ right := by
  rw [add_le_add_iff_right, mul_le_mul_iff_right₀ positive]

theorem sort_map (values : List Rat) :
    Scalar.sort (values.map fun value => scale * value + shift) =
      (Scalar.sort values).map fun value => scale * value + shift := by
  refine (map_stableSort (fun left right => ?_) values).symm
  simp only [Scalar.precedes, rescaled_le_iff positive]

/-- The fences move along with the values. -/
theorem admits_ofValues_map (nonempty : values ≠ []) (value : Rat) :
    (ofValues (values.map fun value => scale * value + shift)).admits (scale * value + shift) =
      (ofValues values).admits value := by
  have sorted : Scalar.sort values ≠ [] := by
    obtain ⟨value, member⟩ := List.exists_mem_of_ne_nil values nonempty
    exact List.ne_nil_of_mem (mem_stableSort.mpr member)
  simp only [ofValues, sort_map positive, quartiles_map sorted]
  obtain ⟨first, third⟩ := quartiles (Scalar.sort values)
  have lower : scale * first + shift - (scale * third + shift - (scale * first + shift)) * (3 / 2) =
      scale * (first - (third - first) * (3 / 2)) + shift := by ring
  have upper : scale * third + shift + (scale * third + shift - (scale * first + shift)) * (3 / 2) =
      scale * (third + (third - first) * (3 / 2)) + shift := by ring
  rw [Bool.eq_iff_iff, admits_iff, admits_iff, ofQuartiles_eq, ofQuartiles_eq, lower, upper,
    rescaled_le_iff positive, rescaled_le_iff positive]

end Exact

end Fences

section Kept

variable {values : List Rat}

theorem count_withoutOutliers {value : Rat} (member : value ∈ withoutOutliers values) :
    (withoutOutliers values).count value = values.count value := by
  unfold withoutOutliers at *
  split
  · rfl
  next many =>
    rw [if_neg many] at member
    exact List.count_filter (List.mem_filter.mp member).2

theorem exists_split_sort (values : List Rat) : ∃ below above,
    Scalar.sort values = below ++ (Scalar.sort (withoutOutliers values) ++ above) := by
  unfold withoutOutliers
  split
  · exact ⟨[], [], by rw [List.nil_append, List.append_nil]⟩
  next many =>
    have ascending : (Scalar.sort values).Pairwise (· ≤ ·) := pairwise_sort fun _ _ => le_rfl
    obtain ⟨below, above, split⟩ := Fences.exists_split_filter (Fences.ofValues values) ascending
    refine ⟨below, above, ?_⟩
    have sorted : (Scalar.sort values).filter (Fences.ofValues values).admits =
        Scalar.sort (values.filter (Fences.ofValues values).admits) :=
      filter_stableSort precedes_total (fun _ _ _ => precedes_trans) _ _
    rw [← sorted, ← split]

theorem length_le_withoutOutliers (values : List Rat) :
    values.length ≤ 2 * (withoutOutliers values).length := by
  unfold withoutOutliers
  split
  · omega
  next many =>
    have ascending : (Scalar.sort values).Pairwise (· ≤ ·) := pairwise_sort fun _ _ => le_rfl
    have sorted : (Scalar.sort values).Perm values := perm_stableSort values
    have sameLength := sorted.length_eq
    obtain ⟨middle, sublist, half, between⟩ := Fences.exists_middle ascending (by omega)
    have kept : middle.Sublist ((Scalar.sort values).filter (Fences.ofValues values).admits) := by
      have all : middle.filter (Fences.ofValues values).admits = middle :=
        List.filter_eq_self.mpr fun value member =>
          Fences.admits_ofQuartiles (between value member).1 (between value member).2
      exact all ▸ sublist.filter _
    have count := kept.length_le
    rw [(sorted.filter _).length_eq] at count
    omega

theorem withoutOutliers_perm {others : List Rat} (same : others.Perm values) :
    (withoutOutliers others).Perm (withoutOutliers values) := by
  have fences : Fences.ofValues others = Fences.ofValues values := by
    rw [Fences.ofValues, Fences.ofValues, LinearScalar.sort_eq_of_perm same]
  unfold withoutOutliers
  rw [same.length_eq, fences]
  split
  · exact same
  · exact same.filter _

theorem withoutOutliers_map {scale : Rat} (positive : 0 < scale) (shift : Rat)
    (values : List Rat) :
    withoutOutliers (values.map fun value => scale * value + shift) =
      (withoutOutliers values).map fun value => scale * value + shift := by
  unfold withoutOutliers
  rw [List.length_map]
  split
  · rfl
  next many =>
    have nonempty : values ≠ [] := fun none => many (by simp [none])
    rw [List.filter_map]
    congr 1
    exact List.filter_congr fun value _ => Fences.admits_ofValues_map positive shift nonempty value

/-- What is left without outliers is the middle of the values: with any two values it has all that
lie between them, so others are left out at the two ends of the sorted order only, and it has half
of the values or more.  Neither the order of the values nor their unit and origin matter. -/
structure KeepsMiddle (values : List Rat) : Prop where
  sublist : (withoutOutliers values).Sublist values
  between : ∀ low ∈ withoutOutliers values, ∀ high ∈ withoutOutliers values,
    ∀ value, low ≤ value → value ≤ high →
      (withoutOutliers values).count value = values.count value
  ends : ∃ below above,
    Scalar.sort values = below ++ (Scalar.sort (withoutOutliers values) ++ above)
  half : values.length ≤ 2 * (withoutOutliers values).length
  nonempty : values ≠ [] → withoutOutliers values ≠ []
  reordered : ∀ others : List Rat, others.Perm values →
    (withoutOutliers others).Perm (withoutOutliers values)
  rescaled : ∀ scale shift : Rat, 0 < scale →
    withoutOutliers (values.map fun value => scale * value + shift) =
      (withoutOutliers values).map fun value => scale * value + shift

theorem keepsMiddle (values : List Rat) : KeepsMiddle values where
  sublist := withoutOutliers_sublist values
  between low lowKept high highKept value above below := by
    by_cases member : value ∈ values
    · exact count_withoutOutliers
        (mem_withoutOutliers_of_between lowKept member highKept above below)
    · have left : value ∉ withoutOutliers values :=
        fun kept => member ((withoutOutliers_sublist values).subset kept)
      rw [List.count_eq_zero_of_not_mem member, List.count_eq_zero_of_not_mem left]
  ends := exists_split_sort values
  half := length_le_withoutOutliers values
  nonempty some none := by
    have half := length_le_withoutOutliers values
    rw [none] at half
    exact some (List.eq_nil_of_length_eq_zero (by simpa using half))
  reordered _ same := withoutOutliers_perm same
  rescaled _ shift positive := withoutOutliers_map positive shift values

end Kept

end HostTimeline
