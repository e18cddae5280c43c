import HostTimeline.Proofs.HostMap
import HostTimeline.Proofs.IntegerText
import HostTimeline.Proofs.Number.IntegerValue
import Mathlib.Data.List.Forall2

/-!
What the decoder accepts.  One judgment for each part of a document says which members it has to
have and what is read from them; each function of the decoder agrees with its judgment, for members
whose numbers are held as a parser holds them (`Json.Value.IsProper`).
-/

namespace HostTimeline

namespace Json

/-- An integer of 64 bits, signed or not, or a finite number in binary64. -/
def Number.IsHeld : Number → Prop
  | .integer value => Text.leastInteger ≤ value ∧ value ≤ Numeral.greatestSignificand
  | .binary value => value.isFinite = true

/-- What a parser returns: numbers are held so, and no key occurs twice in an object. -/
inductive Value.IsProper : Value → Prop where
  | null : IsProper .null
  | bool (value : Bool) : IsProper (.bool value)
  | number {value : Number} (held : value.IsHeld) : IsProper (.number value)
  | text (value : String) : IsProper (.text value)
  | array {elements : List Value} (each : ∀ element ∈ elements, IsProper element) :
      IsProper (.array elements)
  | object {members : List (String × Value)} (distinct : (members.map Prod.fst).Nodup)
      (each : ∀ member ∈ members, IsProper member.2) : IsProper (.object members)

/-- The exact value of a number is that integer. -/
def Number.EqualsInteger : Number → Int → Prop
  | .integer own, value => own = value
  | .binary own, value => Binary64.EqualsInteger own value

theorem Number.IsHeld.isFinite_toFloat {number : Number} (held : number.IsHeld) :
    number.toFloat.isFinite = true := by
  cases number with
  | binary value => exact held
  | integer value =>
      have bounded : value.natAbs < 2 ^ 64 := by
        have limits : -9223372036854775808 ≤ value ∧ value ≤ 18446744073709551615 := held
        omega
      exact Binary64.isFinite_ofInt bounded (by decide)

end Json

theorem PowerState.ofCode?_eq_some_iff {code : Int} {state : PowerState} :
    ofCode? code = some state ↔ state.code = code :=
  ⟨code_of_ofCode?, fun same => same ▸ ofCode?_code state⟩

theorem PowerState.exists_code_iff {code : Int} :
    (∃ state : PowerState, state.code = code) ↔ -2 ≤ code ∧ code ≤ 6 := by
  constructor
  · rintro ⟨state, rfl⟩
    cases state <;> decide
  · rintro ⟨low, high⟩
    have isCode : code = -2 ∨ code = -1 ∨ code = 0 ∨ code = 1 ∨ code = 2 ∨ code = 3 ∨ code = 4 ∨
        code = 5 ∨ code = 6 := by omega
    rcases isCode with rfl | rfl | rfl | rfl | rfl | rfl | rfl | rfl | rfl
    exacts [⟨.error, rfl⟩, ⟨.unknown, rfl⟩, ⟨.idle, rfl⟩, ⟨.used, rfl⟩, ⟨.off, rfl⟩,
      ⟨.poweringOn, rfl⟩, ⟨.poweringOff, rfl⟩, ⟨.onError, rfl⟩, ⟨.offError, rfl⟩]

theorem PowerState.fits_code (state : PowerState) : Text.Fits state.code := by
  obtain ⟨low, high⟩ := exists_code_iff.mp ⟨state, rfl⟩
  unfold Text.Fits Text.leastInteger Text.greatestInteger
  omega

namespace Decoding

section Format

variable (members : Members) (name : String)

/-- A field that is a number, here in binary64. -/
def HoldsNumber (value : Float) : Prop :=
  ∃ number, members.lookup name = some (.number number) ∧ number.toFloat = value

/-- A field that may be left out, and is a number otherwise. -/
inductive HoldsOptional : Option Float → Prop where
  | absent (missing : members.lookup name = none) : HoldsOptional none
  | null (empty : members.lookup name = some .null) : HoldsOptional none
  | number {value : Float} (holds : HoldsNumber members name value) : HoldsOptional (some value)

/-- A field that is a number of integral value. -/
def HoldsInteger (value : Int) : Prop :=
  ∃ number, members.lookup name = some (.number number) ∧ number.EqualsInteger value

/-- A field that is a number of integral value, or the text of an integer. -/
def HoldsCode (code : Int) : Prop :=
  HoldsInteger members name code ∨
    ∃ text, members.lookup name = some (.text text) ∧ Text.HoldsInteger text.toList code

/-- An object with the fields of an observation. -/
structure IsObservation : Prop where
  time : ∃ value, HoldsNumber members "t" value
  state : ∃ code, HoldsCode members "state" code ∧ -2 ≤ code ∧ code ≤ 6
  slots : ∃ value, HoldsInteger members "slots" value
  slotsUsed : ∃ value, HoldsInteger members "slots_used" value
  memory : ∃ value, HoldsNumber members "memory" value
  memoryUsed : ∃ value, HoldsNumber members "memory_used" value

/-- What the fields of an observation say; a slot count that does not fit 64 bits stands for the
nearest one that does. -/
structure Describes (observation : Observation Float) : Prop where
  time : HoldsNumber members "t" observation.time
  state : HoldsCode members "state" observation.state.code
  slots : ∃ value, HoldsInteger members "slots" value ∧ clampInteger value = observation.slots
  slotsUsed : ∃ value, HoldsInteger members "slots_used" value ∧
    clampInteger value = observation.slotsUsed
  memory : HoldsNumber members "memory" observation.memory
  memoryUsed : HoldsNumber members "memory_used" observation.memoryUsed

end Format

/-- An object that says what an observation is. -/
def IsElement (element : Json.Value) (observation : Observation Float) : Prop :=
  ∃ members, element = .object members ∧ Describes members observation

/-- An array of observations, in the order of the elements. -/
def IsHost (value : Json.Value) (observations : List (Observation Float)) : Prop :=
  ∃ elements, value = .array elements ∧ List.Forall₂ IsElement elements observations

variable {members : Members} {name : String}

theorem isObservation_iff : IsObservation members ↔ ∃ observation, Describes members observation := by
  constructor
  · rintro ⟨⟨time, timed⟩, ⟨code, isCode, bounds⟩, ⟨slots, offered⟩, ⟨slotsUsed, taken⟩,
      ⟨memory, installed⟩, ⟨memoryUsed, used⟩⟩
    obtain ⟨state, rfl⟩ := PowerState.exists_code_iff.mpr bounds
    exact ⟨⟨time, state, clampInteger slots, clampInteger slotsUsed, memory, memoryUsed⟩,
      { time := timed
        state := isCode
        slots := ⟨slots, offered, rfl⟩
        slotsUsed := ⟨slotsUsed, taken, rfl⟩
        memory := installed
        memoryUsed := used }⟩
  · rintro ⟨observation, describes⟩
    obtain ⟨slots, offered, _⟩ := describes.slots
    obtain ⟨slotsUsed, taken, _⟩ := describes.slotsUsed
    exact
      { time := ⟨_, describes.time⟩
        state := ⟨_, describes.state, PowerState.exists_code_iff.mp ⟨_, rfl⟩⟩
        slots := ⟨slots, offered⟩
        slotsUsed := ⟨slotsUsed, taken⟩
        memory := ⟨_, describes.memory⟩
        memoryUsed := ⟨_, describes.memoryUsed⟩ }

section Numbers

theorem clampInteger_eq {value : Int} (fits : Text.Fits value) : clampInteger value = value := by
  unfold Text.Fits at fits
  unfold clampInteger
  omega

theorem eq_of_clampInteger_eq_code {value : Int} {state : PowerState}
    (same : clampInteger value = state.code) : value = state.code := by
  obtain ⟨low, high⟩ := PowerState.exists_code_iff.mp ⟨state, rfl⟩
  unfold clampInteger Text.leastInteger Text.greatestInteger at same
  omega

/-- An integer with no place among the signed ones is rounded to one that has none either. -/
theorem exists_equalsInteger_ofInt {value : Int} (above : Text.greatestInteger < value)
    (held : (Json.Number.integer value).IsHeld) :
    ∃ rounded, Binary64.EqualsInteger (Float.ofInt value) rounded ∧
      Text.greatestInteger < rounded := by
  have next : Binary64.EqualsInteger (Float.ofInt 9223372036854775808) 9223372036854775808 :=
    Binary64.integer?_eq_some_iff.mp (by decide +kernel)
  exact next.exists_of_le (by decide) (Binary64.ofInt_le above) held.isFinite_toFloat

theorem clampInteger_of_large {value : Int} (above : Text.greatestInteger < value) :
    clampInteger value = Text.greatestInteger := by
  unfold clampInteger Text.leastInteger Text.greatestInteger at *
  omega

/-- An integer is read from exactly the numbers of integral value. -/
theorem integerOf?_eq_some_iff {number : Json.Number} (held : number.IsHeld) {value : Int} :
    integerOf? number = some value ↔
      ∃ own, number.EqualsInteger own ∧ clampInteger own = value := by
  have binary_iff (x : Float) : (Binary64.integer? x).map clampInteger = some value ↔
      ∃ own, Binary64.EqualsInteger x own ∧ clampInteger own = value := by
    simp only [Option.map_eq_some_iff, Binary64.integer?_eq_some_iff]
  cases number with
  | binary x => exact binary_iff x
  | integer own =>
      have same : (∃ other, (Json.Number.integer own).EqualsInteger other ∧
          clampInteger other = value) ↔ clampInteger own = value :=
        ⟨fun ⟨_, same, clamped⟩ => same ▸ clamped, fun clamped => ⟨own, rfl, clamped⟩⟩
      rw [same, integerOf?]
      split_ifs with fits
      · rw [Option.some.injEq, clampInteger_eq fits]
      · have above : Text.greatestInteger < own := by
          have low : Text.leastInteger ≤ own := held.1
          by_contra below
          exact fits ⟨low, Int.not_lt.mp below⟩
        obtain ⟨rounded, equals, beyond⟩ := exists_equalsInteger_ofInt above held
        rw [Binary64.integer?_eq_some_iff.mpr equals, Option.map_some, Option.some.injEq,
          clampInteger_of_large beyond, clampInteger_of_large above]

theorem integerOf?_bind_ofCode?_eq_some_iff {number : Json.Number} (held : number.IsHeld)
    {state : PowerState} :
    integerOf? number >>= PowerState.ofCode? = some state ↔ number.EqualsInteger state.code := by
  change (integerOf? number).bind _ = _ ↔ _
  simp only [Option.bind_eq_some_iff, integerOf?_eq_some_iff held, PowerState.ofCode?_eq_some_iff]
  constructor
  · rintro ⟨_, ⟨own, equals, rfl⟩, same⟩
    exact eq_of_clampInteger_eq_code same.symm ▸ equals
  · intro equals
    exact ⟨_, ⟨_, equals, rfl⟩, (clampInteger_eq state.fits_code).symm⟩

theorem integerIn?_bind_ofCode?_eq_some_iff {text : String} {state : PowerState} :
    integerIn? text >>= PowerState.ofCode? = some state ↔
      Text.HoldsInteger text.toList state.code := by
  change (integerIn? text).bind _ = _ ↔ _
  simp only [Option.bind_eq_some_iff, integerIn?_eq_some_iff, PowerState.ofCode?_eq_some_iff]
  constructor
  · rintro ⟨_, ⟨holds, _⟩, rfl⟩
    exact holds
  · intro holds
    exact ⟨_, ⟨holds, state.fits_code⟩, rfl⟩

end Numbers

section Fields

variable (proper : ∀ member ∈ members, member.2.IsProper)
include proper

theorem isProper_of_lookup {value : Json.Value} (found : members.lookup name = some value) :
    value.IsProper := by
  obtain ⟨before, after, split, _⟩ := List.lookup_eq_some_iff.mp found
  exact proper (name, value) (by simp [split])

theorem isHeld_of_lookup {number : Json.Number}
    (found : members.lookup name = some (.number number)) : number.IsHeld := by
  cases isProper_of_lookup proper found with
  | number held => exact held

theorem number?_ok_iff {result : Option Float} :
    number? members name = .ok result ↔ HoldsOptional members name result := by
  unfold number?
  constructor
  · intro read
    split at read
    next missing =>
      cases read
      exact .absent missing
    next empty =>
      cases read
      exact .null empty
    next number found =>
      rw [if_pos (isHeld_of_lookup proper found).isFinite_toFloat] at read
      cases read
      exact .number ⟨number, found, rfl⟩
    next => cases read
  · intro holds
    cases holds with
    | absent missing => rw [missing]
    | null empty => rw [empty]
    | number holds =>
        obtain ⟨number, found, rfl⟩ := holds
        rw [found]
        exact if_pos (isHeld_of_lookup proper found).isFinite_toFloat

theorem number_ok_iff {value : Float} :
    number members name = .ok value ↔ HoldsNumber members name value := by
  unfold number
  rw [bind_ok_iff]
  simp only [number?_ok_iff proper]
  constructor
  · rintro ⟨found, holds, read⟩
    cases holds with
    | absent => cases read
    | null => cases read
    | number holds =>
        cases read
        exact holds
  · intro holds
    exact ⟨some value, .number holds, rfl⟩

theorem integer_ok_iff {value : Int} :
    integer members name = .ok value ↔
      ∃ own, HoldsInteger members name own ∧ clampInteger own = value := by
  unfold integer HoldsInteger
  constructor
  · intro read
    split at read
    next number found =>
      split at read
      next own isInteger =>
        cases read
        obtain ⟨own, equals, rfl⟩ :=
          (integerOf?_eq_some_iff (isHeld_of_lookup proper found)).mp isInteger
        exact ⟨own, ⟨number, found, equals⟩, rfl⟩
      next => cases read
    next => cases read
  · rintro ⟨own, ⟨number, found, equals⟩, rfl⟩
    simp only [found, (integerOf?_eq_some_iff (isHeld_of_lookup proper found)).mpr ⟨own, equals, rfl⟩]

theorem state_ok_iff {result : PowerState} :
    state members name = .ok result ↔ HoldsCode members name result.code := by
  unfold state HoldsCode HoldsInteger
  constructor
  · intro read
    split at read
    next number found =>
      split at read
      next known =>
        cases read
        exact .inl ⟨number, found, (integerOf?_bind_ofCode?_eq_some_iff
          (isHeld_of_lookup proper found)).mp known⟩
      next => cases read
    next text found =>
      split at read
      next known =>
        cases read
        exact .inr ⟨text, found, integerIn?_bind_ofCode?_eq_some_iff.mp known⟩
      next => cases read
    next => cases read
  · rintro (⟨number, found, equals⟩ | ⟨text, found, holds⟩)
    · simp only [found,
        (integerOf?_bind_ofCode?_eq_some_iff (isHeld_of_lookup proper found)).mpr equals]
    · simp only [found, integerIn?_bind_ofCode?_eq_some_iff.mpr holds]

end Fields

theorem observation_ok_iff {value : Json.Value} (proper : value.IsProper)
    {result : Observation Float} : observation value = .ok result ↔ IsElement value result := by
  cases proper with
  | @object members distinct each =>
      have fields : observation (.object members) = .ok result ↔ Describes members result := by
        simp only [observation, field, bind_ok_iff, mapError_ok_iff, number_ok_iff each,
          integer_ok_iff each, state_ok_iff each]
        constructor
        · rintro ⟨time, timed, state, isCode, slots, offered, slotsUsed, taken, memory, installed,
            memoryUsed, used, same⟩
          cases same
          exact ⟨timed, isCode, offered, taken, installed, used⟩
        · rintro ⟨timed, isCode, offered, taken, installed, used⟩
          exact ⟨_, timed, _, isCode, _, offered, _, taken, _, installed, _, used, rfl⟩
      rw [fields]
      exact ⟨fun describes => ⟨members, rfl, describes⟩, by rintro ⟨_, ⟨⟩, describes⟩; exact describes⟩
  | null | bool | number | text | array =>
      exact ⟨fun read => (nomatch read), fun ⟨_, same, _⟩ => (nomatch same)⟩

theorem observations_ok_iff {values : List Json.Value} (proper : ∀ value ∈ values, value.IsProper)
    {index : Nat} {results : List (Observation Float)} :
    observations name index values = .ok results ↔ List.Forall₂ IsElement values results := by
  induction values generalizing index results with
  | nil =>
      rw [List.forall₂_nil_left_iff]
      exact ⟨fun read => by cases read; rfl, fun same => same ▸ rfl⟩
  | cons value rest ih =>
      obtain ⟨here, later⟩ := List.forall_mem_cons.mp proper
      simp only [observations, bind_ok_iff, mapError_ok_iff, observation_ok_iff here, ih later,
        List.forall₂_cons_left_iff]
      constructor
      · rintro ⟨first, isFirst, others, areOthers, same⟩
        cases same
        exact ⟨first, others, isFirst, areOthers, rfl⟩
      · rintro ⟨first, others, isFirst, areOthers, rfl⟩
        exact ⟨first, isFirst, others, areOthers, rfl⟩

theorem host_ok_iff {value : Json.Value} (proper : value.IsProper)
    {results : List (Observation Float)} : host name value = .ok results ↔ IsHost value results := by
  cases proper with
  | @array elements each =>
      change observations name 0 elements = .ok results ↔ _
      rw [observations_ok_iff each]
      exact ⟨fun all => ⟨elements, rfl, all⟩, by rintro ⟨_, ⟨⟩, all⟩; exact all⟩
  | null | bool | number | text | object =>
      exact ⟨fun read => (nomatch read), fun ⟨_, same, _⟩ => (nomatch same)⟩

theorem hosts_ok_iff (proper : ∀ member ∈ members, member.2.IsProper)
    {entries : List (String × List (Observation Float))} :
    hosts members = .ok entries ↔
      List.Forall₂ (fun member entry => entry.1 = member.1 ∧ IsHost member.2 entry.2)
        members entries := by
  induction members generalizing entries with
  | nil =>
      rw [List.forall₂_nil_left_iff]
      exact ⟨fun read => by cases read; rfl, fun same => same ▸ rfl⟩
  | cons member rest ih =>
      obtain ⟨here, later⟩ := List.forall_mem_cons.mp proper
      simp only [hosts, bind_ok_iff, host_ok_iff here, ih later, List.forall₂_cons_left_iff]
      constructor
      · rintro ⟨first, isFirst, others, areOthers, same⟩
        cases same
        exact ⟨(member.1, first), others, ⟨rfl, isFirst⟩, areOthers, rfl⟩
      · rintro ⟨⟨name, first⟩, others, ⟨rfl, isFirst⟩, areOthers, rfl⟩
        exact ⟨first, isFirst, others, areOthers, rfl⟩

end Decoding

end HostTimeline
