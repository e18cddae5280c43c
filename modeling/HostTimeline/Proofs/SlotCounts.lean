import HostTimeline.Proofs.DocumentFormat

/-!
Slot counts.  Every observation of a document has its counts from the fields of one element, and
every such element makes an observation.  A count is the number in its field if that number fits 64
bits, and the nearest end of their range if it does not; so a document keeps the counts it was read
from exactly if all of them fit (`Document.readsCounts`).
-/

namespace HostTimeline

section Related

variable {α β : Type} {related : α → β → Prop}

theorem rel_getElem? {items : List α} {results : List β}
    (all : List.Forall₂ related items results) (index : Nat) :
    Option.Rel related items[index]? results[index]? := by
  induction all generalizing index with
  | nil => exact .none
  | cons here _ ih =>
      cases index with
      | zero => exact .some here
      | succ index => exact ih index

variable {left : Option α} {right : Option β}

theorem rel_bind {γ δ : Type} {results : γ → δ → Prop} {change : α → Option γ}
    {other : β → Option δ} (same : Option.Rel related left right)
    (each : ∀ item result, related item result → Option.Rel results (change item) (other result)) :
    Option.Rel results (left.bind change) (right.bind other) := by
  cases same with
  | none => exact .none
  | some here => exact each _ _ here

theorem rel_imp {other : α → β → Prop} (same : Option.Rel related left right)
    (each : ∀ item result, related item result → other item result) :
    Option.Rel other left right := by
  cases same with
  | none => exact .none
  | some here => exact .some (each _ _ here)

/-- Between options that are related already, another relation may be one of the left item alone. -/
theorem rel_iff_forall {other : α → β → Prop} {test : α → Prop}
    (same : Option.Rel related left right)
    (each : ∀ item result, related item result → (other item result ↔ test item)) :
    Option.Rel other left right ↔ ∀ item, left = some item → test item := by
  cases same with
  | none => exact ⟨fun _ _ absent => (nomatch absent), fun _ => .none⟩
  | some here =>
      rw [Option.rel_some_some, each _ _ here]
      exact ⟨fun passes _ same => Option.some.inj same ▸ passes, fun all => all _ rfl⟩

end Related

/-- Of the integers that fit 64 bits none is closer. -/
structure IsNearest (own value : Int) : Prop where
  fits : Text.Fits value
  closest : ∀ other, Text.Fits other → (own - value).natAbs ≤ (own - other).natAbs

theorem Json.Number.EqualsInteger.unique {number : Json.Number} {value other : Int}
    (equals : number.EqualsInteger value) (equalsOther : number.EqualsInteger other) :
    value = other := by
  cases number with
  | integer own => exact equals.symm.trans equalsOther
  | binary own =>
      have read := Binary64.integer?_eq_some_iff.mpr equals
      rw [Binary64.integer?_eq_some_iff.mpr equalsOther] at read
      exact (Option.some.inj read).symm

namespace Decoding

def object? : Json.Value → Option Members
  | .object members => some members
  | _ => none

def array? : Json.Value → Option (List Json.Value)
  | .array elements => some elements
  | _ => none

/-- The fields of one observation, by the name of its host and its position there. -/
def fieldsAt? (value : Json.Value) (host : String) (index : Nat) : Option Members := do
  let members ← object? value
  let hosts ← (members.lookup "hostevents").bind object?
  let elements ← (hosts.lookup host).bind array?
  elements[index]?.bind object?

section Counts

variable (fields : Members) (name : String) (observation : Observation Float)

/-- A field that is a number equal to an integer of 64 bits. -/
def HoldsFitting : Prop :=
  ∃ own, HoldsInteger fields name own ∧ Text.Fits own

/-- What is read from the number in a field: the nearest count, which is that number itself
only if it fits. -/
structure IsCount (count : Int) : Prop where
  nearest : ∃ own, HoldsInteger fields name own ∧ IsNearest own count
  exact_iff : HoldsInteger fields name count ↔ HoldsFitting fields name

/-- The counts are read from their fields. -/
structure IsCounted : Prop where
  slots : IsCount fields "slots" observation.slots
  slotsUsed : IsCount fields "slots_used" observation.slotsUsed

/-- The counts are equal to the numbers in their fields. -/
structure HoldsCounts : Prop where
  slots : HoldsInteger fields "slots" observation.slots
  slotsUsed : HoldsInteger fields "slots_used" observation.slotsUsed

/-- The numbers in the fields of the counts fit 64 bits. -/
structure FitCounts : Prop where
  slots : HoldsFitting fields "slots"
  slotsUsed : HoldsFitting fields "slots_used"

end Counts

variable {fields : Members} {name : String} {observation : Observation Float}

theorem fits_clampInteger (own : Int) : Text.Fits (clampInteger own) := by
  unfold Text.Fits clampInteger Text.leastInteger Text.greatestInteger
  omega

theorem isNearest_clampInteger (own : Int) : IsNearest own (clampInteger own) where
  fits := fits_clampInteger own
  closest other fits := by
    unfold Text.Fits Text.leastInteger Text.greatestInteger at fits
    unfold clampInteger Text.leastInteger Text.greatestInteger
    omega

theorem HoldsInteger.unique {value other : Int} (holds : HoldsInteger fields name value)
    (holdsOther : HoldsInteger fields name other) : value = other := by
  obtain ⟨number, found, equals⟩ := holds
  obtain ⟨_, foundOther, equalsOther⟩ := holdsOther
  rw [found, Option.some.injEq, Json.Value.number.injEq] at foundOther
  exact equals.unique (foundOther ▸ equalsOther)

theorem isCount_of_clampInteger {count : Int}
    (read : ∃ own, HoldsInteger fields name own ∧ clampInteger own = count) :
    IsCount fields name count := by
  obtain ⟨own, holds, rfl⟩ := read
  refine ⟨⟨own, holds, isNearest_clampInteger own⟩, ?_⟩
  constructor
  · intro same
    exact ⟨_, same, fits_clampInteger own⟩
  · rintro ⟨other, holdsOther, fits⟩
    obtain rfl := holds.unique holdsOther
    rwa [clampInteger_eq fits]

theorem Describes.isCounted (describes : Describes fields observation) :
    IsCounted fields observation :=
  ⟨isCount_of_clampInteger describes.slots, isCount_of_clampInteger describes.slotsUsed⟩

theorem IsCounted.holdsCounts_iff (counted : IsCounted fields observation) :
    HoldsCounts fields observation ↔ FitCounts fields := by
  constructor
  · rintro ⟨slots, slotsUsed⟩
    exact ⟨counted.slots.exact_iff.mp slots, counted.slotsUsed.exact_iff.mp slotsUsed⟩
  · rintro ⟨slots, slotsUsed⟩
    exact ⟨counted.slots.exact_iff.mpr slots, counted.slotsUsed.exact_iff.mpr slotsUsed⟩

end Decoding

namespace Document

open Decoding

def observationAt? (document : Document Float) (host : String) (index : Nat) :
    Option (Observation Float) :=
  (document.hosts.find? host).bind fun observations => observations[index]?

/-- Every count is equal to the number it was read from. -/
def KeepsCounts (value : Json.Value) (document : Document Float) : Prop :=
  ∀ host index,
    Option.Rel HoldsCounts (fieldsAt? value host index) (document.observationAt? host index)

/-- Every count that there is to read fits 64 bits. -/
def CountsFit (value : Json.Value) : Prop :=
  ∀ host index fields, fieldsAt? value host index = some fields → FitCounts fields

structure ReadsCounts (value : Json.Value) (document : Document Float) : Prop where
  counted : ∀ host index,
    Option.Rel IsCounted (fieldsAt? value host index) (document.observationAt? host index)
  keepsCounts_iff : KeepsCounts value document ↔ CountsFit value

variable {value : Json.Value} {document : Document Float}

theorem IsOf.rel_host {members hosts : Members} (isOf : document.IsOf members)
    (found : members.lookup "hostevents" = some (.object hosts))
    (distinct : (hosts.map Prod.fst).Nodup) (name : String) :
    Option.Rel IsHost (hosts.lookup name) (document.hosts.find? name) := by
  obtain ⟨_, same, named, each⟩ := isOf.hosts
  rw [found, Option.some.injEq, Json.Value.object.injEq] at same
  subst same
  by_cases isName : name ∈ hosts.map Prod.fst
  · obtain ⟨host, member, rfl⟩ := List.mem_map.mp isName
    obtain ⟨observations, kept, isHost⟩ := each host member
    rw [lookup_of_mem distinct member, kept]
    exact .some isHost
  · have absent : document.hosts.find? name = none := by
      refine Option.eq_none_iff_forall_ne_some.mpr fun observations kept => isName ?_
      exact named.mem_iff.mp (List.mem_map_of_mem (HostMap.mem_of_find? kept))
    have missing : hosts.lookup name = none := by
      refine Option.eq_none_iff_forall_ne_some.mpr fun host kept => isName ?_
      obtain ⟨before, after, split, _⟩ := List.lookup_eq_some_iff.mp kept
      simp [split]
    rw [absent, missing]
    exact .none

/-- Observations and elements at the same place belong together. -/
theorem rel_fieldsAt? (proper : value.IsProper) (read : ofJson value = .ok document)
    (host : String) (index : Nat) :
    Option.Rel Describes (fieldsAt? value host index) (document.observationAt? host index) := by
  obtain ⟨members, rfl, isOf⟩ := isOf_ofJson proper read
  cases proper with
  | object _ each =>
      obtain ⟨hosts, found, _⟩ := isOf.hosts
      have distinct := (isProper_hosts each found).1
      have fields : fieldsAt? (.object members) host index =
          (hosts.lookup host).bind fun element =>
            (array? element).bind fun elements => elements[index]?.bind object? := by
        change ((members.lookup "hostevents").bind object?).bind _ = _
        rw [found, ← Option.bind_assoc]
        rfl
      rw [fields]
      refine rel_bind (isOf.rel_host found distinct host) ?_
      rintro _ observations ⟨elements, rfl, all⟩
      have here := rel_getElem? all index
      change Option.Rel Describes (elements[index]?.bind object?) observations[index]?
      generalize elements[index]? = element, observations[index]? = observation at here ⊢
      cases here with
      | none => exact .none
      | some isElement =>
          obtain ⟨fields, rfl, describes⟩ := isElement
          exact .some describes

theorem readsCounts (proper : value.IsProper) (read : ofJson value = .ok document) :
    ReadsCounts value document := by
  have counted (host : String) (index : Nat) :
      Option.Rel IsCounted (fieldsAt? value host index) (document.observationAt? host index) :=
    rel_imp (rel_fieldsAt? proper read host index) fun _ _ describes => describes.isCounted
  refine ⟨counted, forall₂_congr fun host index => ?_⟩
  exact rel_iff_forall (counted host index) fun _ _ isCounted => isCounted.holdsCounts_iff

/-- A count with a point, and one that only an unsigned integer of 64 bits can hold. -/
def wideCountFields : Members :=
  [("t", .number (.integer 12)), ("state", .number (.integer 1)),
    ("slots", .number (.binary 4.0)), ("slots_used", .number (.integer 9223372036854775808)),
    ("memory", .number (.integer 1024)), ("memory_used", .number (.integer 0))]

def wideCounts : Json.Value :=
  .object [("hostevents", .object [("wn1", .array [.object wideCountFields])])]

def wideObservation : Observation Float where
  time := 12.0
  state := .used
  slots := 4
  slotsUsed := 9223372036854775807
  memory := 1024.0
  memoryUsed := 0.0

/-- What is read from `wideCounts`. -/
def wideDocument : Document Float where
  hosts := HostMap.ofList [("wn1", [wideObservation])]

theorem isProper_wideCounts : wideCounts.IsProper := by
  have integer (value : Int) (held : Text.leastInteger ≤ value ∧
      value ≤ Json.Numeral.greatestSignificand) : (Json.Value.number (.integer value)).IsProper :=
    .number held
  have finite : (4.0 : Float).isFinite = true := by decide +kernel
  have point : (Json.Value.number (.binary 4.0)).IsProper := .number finite
  refine .object (by decide) (List.forall_mem_singleton.mpr ?_)
  refine .object (by decide) (List.forall_mem_singleton.mpr ?_)
  refine .array (List.forall_mem_singleton.mpr (.object (by decide) ?_))
  simp only [wideCountFields, List.forall_mem_cons]
  exact ⟨integer _ (by decide), integer _ (by decide), point, integer _ (by decide),
    integer _ (by decide), integer _ (by decide), by simp⟩

theorem readsCounts_wideCounts :
    wideCounts.IsProper ∧ ofJson wideCounts = .ok wideDocument ∧
      ReadsCounts wideCounts wideDocument := by
  have read : ofJson wideCounts = .ok wideDocument := rfl
  exact ⟨isProper_wideCounts, read, readsCounts isProper_wideCounts read⟩

/-- Of the two counts the second is not equal to the number it was read from. -/
theorem not_keepsCounts_wideCounts :
    wideCounts.IsProper ∧ ofJson wideCounts = .ok wideDocument ∧
      ¬ KeepsCounts wideCounts wideDocument := by
  refine ⟨isProper_wideCounts, rfl, fun kept => ?_⟩
  have here : Option.Rel HoldsCounts (some wideCountFields) (some wideObservation) := kept "wn1" 0
  obtain ⟨number, found, equals⟩ := (Option.rel_some_some.mp here).slotsUsed
  cases found
  exact absurd (show (9223372036854775808 : Int) = 9223372036854775807 from equals) (by decide)

end Document

end HostTimeline
