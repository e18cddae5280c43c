import HostTimeline.Scalar

/-!
Order laws of the numbers the analysis computes with.  They allow numbers that cannot
be compared, even with themselves: a number is comparable if `x ≤ x`.
-/

namespace HostTimeline

/-- The order by value, and the total order for sorting that refines it. -/
class OrderedScalar (α : Type) [Scalar α] : Prop where
  le_trans {left middle right : α} : left ≤ middle → middle ≤ right → left ≤ right
  le_total {left right : α} : left ≤ left → right ≤ right → left ≤ right ∨ right ≤ left
  le_self_of_le {left right : α} : left ≤ right → left ≤ left ∧ right ≤ right
  lt_iff_le_not_le {left right : α} : left < right ↔ left ≤ right ∧ ¬ right ≤ left
  beq_iff_le_le {left right : α} : (left == right) = true ↔ left ≤ right ∧ right ≤ left
  precedes_total (left right : α) :
    (Scalar.precedes left right || Scalar.precedes right left) = true
  precedes_trans {left middle right : α} : Scalar.precedes left middle = true →
    Scalar.precedes middle right = true → Scalar.precedes left right = true
  le_of_precedes {left right : α} : left ≤ left → right ≤ right →
    Scalar.precedes left right = true → left ≤ right
  zero_le_zero : (Scalar.zero : α) ≤ Scalar.zero

/-- The same number, or numbers that are equal by value. -/
def Scalar.Alike {α : Type} [Scalar α] (left right : α) : Prop :=
  left = right ∨ (left == right) = true

namespace OrderedScalar

variable {α : Type} [Scalar α] [OrderedScalar α] {left middle right : α}

theorem le_of_lt (less : left < right) : left ≤ right :=
  (lt_iff_le_not_le.mp less).1

theorem not_le_of_lt (less : left < right) : ¬ right ≤ left :=
  (lt_iff_le_not_le.mp less).2

theorem lt_irrefl (value : α) : ¬ value < value :=
  fun less => not_le_of_lt less (le_of_lt less)

theorem lt_of_lt_of_le (less : left < middle) (le : middle ≤ right) : left < right :=
  lt_iff_le_not_le.mpr ⟨le_trans (le_of_lt less) le,
    fun back => not_le_of_lt less (le_trans le back)⟩

theorem lt_of_le_of_lt (le : left ≤ middle) (less : middle < right) : left < right :=
  lt_iff_le_not_le.mpr ⟨le_trans le (le_of_lt less),
    fun back => not_le_of_lt less (le_trans back le)⟩

theorem lt_trans (first : left < middle) (second : middle < right) : left < right :=
  lt_of_lt_of_le first (le_of_lt second)

theorem lt_of_not_le (comparable : left ≤ left) (other : right ≤ right)
    (above : ¬ left ≤ right) : right < left :=
  lt_iff_le_not_le.mpr ⟨(le_total comparable other).resolve_left above, above⟩

theorem le_of_not_lt (comparable : left ≤ left) (other : right ≤ right)
    (notLess : ¬ left < right) : right ≤ left := by
  by_cases above : right ≤ left
  · exact above
  · exact absurd (lt_of_not_le other comparable above) notLess

theorem le_of_beq (same : (left == right) = true) : left ≤ right :=
  (beq_iff_le_le.mp same).1

theorem beq_symm (same : (left == right) = true) : (right == left) = true :=
  beq_iff_le_le.mpr (beq_iff_le_le.mp same).symm

theorem beq_trans (first : (left == middle) = true) (second : (middle == right) = true) :
    (left == right) = true :=
  beq_iff_le_le.mpr ⟨le_trans (le_of_beq first) (le_of_beq second),
    le_trans (le_of_beq (beq_symm second)) (le_of_beq (beq_symm first))⟩

theorem lt_or_beq_of_le (le : left ≤ right) : left < right ∨ (left == right) = true := by
  by_cases back : right ≤ left
  · exact .inr (beq_iff_le_le.mpr ⟨le, back⟩)
  · exact .inl (lt_iff_le_not_le.mpr ⟨le, back⟩)

theorem beq_self (comparable : left ≤ left) : (left == left) = true :=
  beq_iff_le_le.mpr ⟨comparable, comparable⟩

theorem not_beq_of_lt (less : left < right) : ¬ (left == right) = true :=
  fun same => not_le_of_lt less (le_of_beq (beq_symm same))

theorem precedes_of_lt (less : left < right) : Scalar.precedes left right = true := by
  have comparable := le_self_of_le (le_of_lt less)
  rcases Bool.or_eq_true_iff.mp (precedes_total left right) with precedes | back
  · exact precedes
  · exact absurd (le_of_precedes comparable.2 comparable.1 back) (not_le_of_lt less)

theorem precedes_refl (value : α) : Scalar.precedes value value = true :=
  (Bool.or_self _).symm.trans (precedes_total value value)

theorem precedes_of_not_precedes (not : ¬ Scalar.precedes left right = true) :
    Scalar.precedes right left = true :=
  (Bool.or_eq_true_iff.mp (precedes_total left right)).resolve_left not

/-- Sorting follows the order of value where it has no two numbers that are equal by value. -/
theorem precedes_of_le (le : left ≤ right)
    (unambiguous : (left == right) = true → left = right) : Scalar.precedes left right = true := by
  rcases lt_or_beq_of_le le with less | same
  · exact precedes_of_lt less
  · rw [unambiguous same]
    exact precedes_refl right

/-- Sorting puts comparable numbers in order of value. -/
theorem pairwise_sort {values : List α} (comparable : ∀ value ∈ values, value ≤ value) :
    (Scalar.sort values).Pairwise (· ≤ ·) := by
  have ordered : (Scalar.sort values).Pairwise fun left right => Scalar.precedes left right :=
    pairwise_stableSort precedes_total (fun _ _ _ => precedes_trans) values
  refine ordered.imp_of_mem ?_
  intro left right leftIn rightIn precedes
  exact le_of_precedes (comparable left (mem_stableSort.mp leftIn))
    (comparable right (mem_stableSort.mp rightIn)) precedes

theorem pairwise_precedes_sortOn {β : Type} (key : β → α) (items : List β) :
    (Scalar.sortOn key items).Pairwise fun left right =>
      Scalar.precedes (key left) (key right) :=
  pairwise_stableSort (fun left right => precedes_total (key left) (key right))
    (fun _ _ _ => precedes_trans) items

/-- Sorting by a key puts the keys in order of value. -/
theorem pairwise_sortOn {β : Type} {key : β → α} {items : List β}
    (comparable : ∀ item ∈ items, key item ≤ key item) :
    (Scalar.sortOn key items).Pairwise fun left right => key left ≤ key right := by
  refine (pairwise_precedes_sortOn key items).imp_of_mem ?_
  intro left right leftIn rightIn precedes
  exact le_of_precedes (comparable left (mem_stableSort.mp leftIn))
    (comparable right (mem_stableSort.mp rightIn)) precedes

theorem filter_sortOn {β : Type} (key : β → α) (keep : β → Bool) (items : List β) :
    (Scalar.sortOn key items).filter keep = Scalar.sortOn key (items.filter keep) :=
  filter_stableSort (fun left right => precedes_total (key left) (key right))
    (fun _ _ _ => precedes_trans) keep items

theorem sortOn_eq_self {β : Type} {key : β → α} {items : List β}
    (increasing : items.Pairwise fun left right => key left < key right) :
    Scalar.sortOn key items = items :=
  stableSort_eq_self (increasing.imp fun less => precedes_of_lt less)

theorem nodup_of_increasing {values : List α} (increasing : values.Pairwise (· < ·)) :
    values.Nodup := by
  unfold List.Nodup
  refine increasing.imp ?_
  intro left right less same
  exact lt_irrefl right (same ▸ less)

/-- Of two values of a strictly ascending list that compare equal, one is the other. -/
theorem eq_of_beq_of_mem {values : List α} (increasing : values.Pairwise (· < ·))
    (leftMember : left ∈ values) (rightMember : right ∈ values)
    (same : (left == right) = true) : left = right := by
  induction increasing with
  | nil => cases leftMember
  | @cons first rest below _ ih =>
      rcases List.mem_cons.mp leftMember with isFirst | leftLater
      · rcases List.mem_cons.mp rightMember with alsoFirst | rightLater
        · exact isFirst.trans alsoFirst.symm
        · subst isFirst
          exact absurd same (not_beq_of_lt (below right rightLater))
      · rcases List.mem_cons.mp rightMember with isFirst | rightLater
        · subst isFirst
          exact absurd (beq_symm same) (not_beq_of_lt (below left leftLater))
        · exact ih leftLater rightLater

variable {other next : α}

theorem alike_symm (alike : Scalar.Alike left right) : Scalar.Alike right left :=
  alike.imp Eq.symm beq_symm

theorem alike_trans (first : Scalar.Alike left middle) (second : Scalar.Alike middle right) :
    Scalar.Alike left right := by
  rcases first with rfl | same
  · exact second
  · rcases second with rfl | equal
    · exact .inr same
    · exact .inr (beq_trans same equal)

theorem le_of_alike (lower : Scalar.Alike left other) (upper : Scalar.Alike right next)
    (le : left ≤ right) : other ≤ next := by
  have above : other ≤ right := by
    rcases lower with rfl | same
    · exact le
    · exact le_trans (le_of_beq (beq_symm same)) le
  rcases upper with rfl | same
  · exact above
  · exact le_trans above (le_of_beq same)

theorem le_congr (lower : Scalar.Alike left other) (upper : Scalar.Alike right next) :
    left ≤ right ↔ other ≤ next :=
  ⟨le_of_alike lower upper, le_of_alike (alike_symm lower) (alike_symm upper)⟩

theorem lt_congr (lower : Scalar.Alike left other) (upper : Scalar.Alike right next) :
    left < right ↔ other < next := by
  rw [lt_iff_le_not_le, lt_iff_le_not_le, le_congr lower upper, le_congr upper lower]

theorem beq_congr (first : Scalar.Alike left other) (second : Scalar.Alike right next) :
    (left == right) = (other == next) := by
  rw [Bool.eq_iff_iff, beq_iff_le_le, beq_iff_le_le, le_congr first second,
    le_congr second first]

end OrderedScalar

instance : OrderedScalar Rat where
  le_trans := Rat.le_trans
  le_total _ _ := Rat.le_total
  le_self_of_le _ := ⟨Rat.le_refl, Rat.le_refl⟩
  lt_iff_le_not_le := Rat.lt_iff_le_and_not_ge
  beq_iff_le_le := by
    intro left right
    rw [beq_iff_eq]
    exact ⟨fun same => same ▸ ⟨Rat.le_refl, Rat.le_refl⟩, fun both => Rat.le_antisymm both.1 both.2⟩
  precedes_total left right := by
    simp only [Scalar.precedes, Bool.or_eq_true, decide_eq_true_eq]
    exact Rat.le_total
  precedes_trans := by
    intro left middle right first second
    simp only [Scalar.precedes, decide_eq_true_eq] at *
    exact Rat.le_trans first second
  le_of_precedes _ _ precedes := of_decide_eq_true precedes
  zero_le_zero := Rat.le_refl

end HostTimeline
