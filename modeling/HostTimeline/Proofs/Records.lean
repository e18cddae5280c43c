import HostTimeline.Table.Csv
import Mathlib.Data.List.Basic

/-!
Comma-separated records can be read back.  The reader is a machine for the common format of such
files: a field may stand in quotes, with quotes in it doubled, and a line break with or without a
carriage return ends a record, except in quotes.  What is written is read as the same records
(`Csv.read?_render`).
-/

namespace HostTimeline.Table.Csv

/-- Where in a field the reading is. -/
inductive Stage where
  | start
  | plain
  | quoted
  /-- After a quote in a quoted field, which ends it unless another one follows. -/
  | quote
  /-- After a carriage return, which has to be part of a line break. -/
  | carriageReturn
deriving Repr, DecidableEq

structure Reader where
  stage : Stage := .start
  field : List Char := []
  /-- The fields before this one in the record. -/
  fields : List String := []
  records : List (List String) := []
deriving Repr

namespace Reader

def add (reader : Reader) (char : Char) (stage : Stage) : Reader :=
  { reader with stage, field := reader.field ++ [char] }

def endField (reader : Reader) : Reader :=
  { fields := reader.fields ++ [String.ofList reader.field], records := reader.records }

def endRecord (reader : Reader) : Reader :=
  { records := reader.records ++ [reader.fields ++ [String.ofList reader.field]] }

/-- Takes in what can end a field, or else goes on as told. -/
def separate? (reader : Reader) (char : Char) (otherwise : Option Reader) : Option Reader :=
  if char = ',' then some reader.endField
  else if char = '\n' then some reader.endRecord
  else if char = '\r' then some { reader with stage := .carriageReturn }
  else otherwise

def step? (reader : Reader) (char : Char) : Option Reader :=
  match reader.stage with
  | .start =>
      reader.separate? char
        (some (if char = '"' then { reader with stage := .quoted } else reader.add char .plain))
  | .plain => reader.separate? char (if char = '"' then none else some (reader.add char .plain))
  | .quoted =>
      some (if char = '"' then { reader with stage := .quote } else reader.add char .quoted)
  | .quote => reader.separate? char (if char = '"' then some (reader.add char .quoted) else none)
  | .carriageReturn => if char = '\n' then some reader.endRecord else none

/-- The records of a text that ends here.  The last line break may be missing. -/
def finish? (reader : Reader) : Option (List (List String)) :=
  match reader.stage with
  | .start => some (if reader.fields.isEmpty then reader.records else reader.endRecord.records)
  | .plain | .quote => some reader.endRecord.records
  | .quoted | .carriageReturn => none

end Reader

/-- The records of a text. -/
def read? (text : List Char) : Option (List (List String)) :=
  text.foldlM Reader.step? {} >>= Reader.finish?

namespace Reader

variable {fields : List String} {records : List (List String)}

/-- A reader at the end of a field with that content. -/
def Holds (reader : Reader) (field : List Char) (fields : List String)
    (records : List (List String)) : Prop :=
  ∃ stage, (stage = .start ∨ stage = .plain ∨ stage = .quote) ∧
    reader = { stage, field, fields, records }

theorem Holds.step?_comma {reader : Reader} {field : List Char}
    (holds : reader.Holds field fields records) :
    reader.step? ',' = some { fields := fields ++ [String.ofList field], records } := by
  obtain ⟨stage, rfl | rfl | rfl, rfl⟩ := holds <;> rfl

theorem Holds.step?_newline {reader : Reader} {field : List Char}
    (holds : reader.Holds field fields records) :
    reader.step? '\n' = some { records := records ++ [fields ++ [String.ofList field]] } := by
  obtain ⟨stage, rfl | rfl | rfl, rfl⟩ := holds <;> rfl

theorem step?_plain {char : Char} (plain : isSpecial char = false) {stage : Stage}
    (outside : stage = .start ∨ stage = .plain) {field : List Char} :
    step? { stage, field, fields, records } char =
      some { stage := .plain, field := field ++ [char], fields, records } := by
  simp only [isSpecial, Bool.or_eq_false_iff, beq_eq_false_iff_ne] at plain
  obtain ⟨⟨⟨comma, quote⟩, newline⟩, carriageReturn⟩ := plain
  rcases outside with rfl | rfl <;>
    simp only [step?, separate?, if_neg comma, if_neg quote, if_neg newline,
      if_neg carriageReturn] <;>
    rfl

theorem foldlM_plain {content field : List Char} (plain : ∀ char ∈ content, isSpecial char = false) :
    content.foldlM step? { stage := .plain, field, fields, records } =
      some { stage := .plain, field := field ++ content, fields, records } := by
  induction content generalizing field with
  | nil => rw [List.append_nil]; rfl
  | cons char rest ih =>
      obtain ⟨here, later⟩ := List.forall_mem_cons.mp plain
      rw [List.foldlM_cons, step?_plain here (.inr rfl), Option.bind_eq_bind, Option.bind_some,
        ih later, List.append_assoc]
      rfl

theorem foldlM_quoted {content field : List Char} :
    (content.flatMap doubleQuote).foldlM step? { stage := .quoted, field, fields, records } =
      some { stage := .quoted, field := field ++ content, fields, records } := by
  induction content generalizing field with
  | nil => rw [List.append_nil]; rfl
  | cons char rest ih =>
      have doubled : (doubleQuote char).foldlM step? { stage := .quoted, field, fields, records } =
          some { stage := .quoted, field := field ++ [char], fields, records } := by
        unfold doubleQuote
        split
        next same =>
          subst same
          rfl
        next other =>
          rw [List.foldlM_cons]
          simp only [step?, if_neg other]
          rfl
      rw [List.flatMap_cons, List.foldlM_append, doubled, Option.bind_eq_bind, Option.bind_some, ih,
        List.append_assoc]
      rfl

/-- A field is read as it was written, quoted or not. -/
theorem exists_holds_fieldChars (field : List Char) (fields : List String)
    (records : List (List String)) :
    ∃ reader, (fieldChars field).foldlM step? { fields, records } = some reader ∧
      reader.Holds field fields records := by
  unfold fieldChars
  split
  next =>
    refine ⟨{ stage := .quote, field, fields, records }, ?_, .quote, .inr (.inr rfl), rfl⟩
    have opened : step? { fields, records } '"' = some { stage := .quoted, fields, records } := rfl
    rw [List.foldlM_cons, opened, Option.bind_eq_bind, Option.bind_some, List.foldlM_append,
      foldlM_quoted]
    rfl
  next plain =>
    rw [Bool.not_eq_true, List.any_eq_false] at plain
    have plain : ∀ char ∈ field, isSpecial char = false := by simpa using plain
    cases field with
    | nil => exact ⟨_, rfl, .start, .inl rfl, rfl⟩
    | cons char rest =>
        obtain ⟨here, later⟩ := List.forall_mem_cons.mp plain
        refine ⟨{ stage := .plain, field := char :: rest, fields, records }, ?_, .plain,
          .inr (.inl rfl), rfl⟩
        rw [List.foldlM_cons, step?_plain here (.inl rfl), Option.bind_eq_bind, Option.bind_some,
          foldlM_plain later]
        rfl

theorem foldlM_fields {content : List (List Char)} (nonempty : content ≠ []) :
    (([','].intercalate (content.map fieldChars)) ++ ['\n']).foldlM step? { fields, records } =
      some { records := records ++ [fields ++ content.map String.ofList] } := by
  induction content generalizing fields with
  | nil => exact absurd rfl nonempty
  | cons field rest ih =>
      obtain ⟨reader, read, holds⟩ := exists_holds_fieldChars field fields records
      cases rest with
      | nil =>
          rw [List.map_cons, List.map_nil, List.intercalate_singleton, List.foldlM_append, read,
            Option.bind_eq_bind, Option.bind_some, List.foldlM_cons, holds.step?_newline]
          rfl
      | cons next others =>
          rw [List.map_cons, List.map_cons, List.intercalate_cons_cons, List.append_assoc,
            List.append_assoc, List.foldlM_append, read, Option.bind_eq_bind, Option.bind_some,
            List.singleton_append, List.foldlM_cons, holds.step?_comma, Option.bind_eq_bind,
            Option.bind_some, ← List.map_cons, ih (List.cons_ne_nil _ _), List.append_assoc]
          rfl

theorem foldlM_record {content : List (List Char)} (nonempty : content ≠ []) :
    (recordChars content).foldlM step? { records } =
      some { records := records ++ [content.map String.ofList] } := by
  unfold recordChars
  split
  next empty =>
    subst empty
    rfl
  next => exact foldlM_fields nonempty

end Reader

theorem foldlM_render {added : List (List String)} (nonempty : ∀ record ∈ added, record ≠ [])
    (records : List (List String)) :
    (render added).foldlM Reader.step? { records } = some { records := records ++ added } := by
  induction added generalizing records with
  | nil => rw [List.append_nil]; rfl
  | cons record rest ih =>
      obtain ⟨here, later⟩ := List.forall_mem_cons.mp nonempty
      have same : (record.map String.toList).map String.ofList = record := by
        simp [Function.comp_def]
      rw [render, List.flatMap_cons, List.foldlM_append,
        Reader.foldlM_record (by simpa using here), same, Option.bind_eq_bind, Option.bind_some]
      exact (ih later _).trans (by rw [List.append_assoc]; rfl)

/-- Records that are written are read as the same records, if each has a field. -/
theorem read?_render {records : List (List String)} (nonempty : ∀ record ∈ records, record ≠ []) :
    read? (render records) = some records := by
  unfold read?
  rw [foldlM_render nonempty, List.nil_append]
  rfl

end HostTimeline.Table.Csv
