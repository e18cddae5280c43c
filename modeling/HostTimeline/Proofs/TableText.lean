import HostTimeline.Proofs.HostMap
import HostTimeline.Proofs.JsonText
import HostTimeline.Proofs.Records
import HostTimeline.Table.Basic

/-!
What the text of a table says.  Comma-separated records and JSON objects can be read back, and say
for each row and each selected field what the cell is, if it is defined (`Table.isCarried`).
-/

namespace HostTimeline.Table

namespace Objects

open Json Json.Reader

/-- The value that stands for a cell. -/
def valueOf : Option String → Value
  | none => .null
  | some text => .text text

variable {stack : List Frame}

theorem feed_valueChars (cell : Option String) (members : List (String × Value)) (key : String) :
    feed { mode := .value, stack := .member members key :: stack } (valueChars cell) =
      .ok { mode := .separator, stack := .object (setEntry key (valueOf cell) members) :: stack } := by
  cases cell with
  | none => rfl
  | some text =>
      have opened : feed { mode := .value, stack := .member members key :: stack } ['"'] =
          .ok (inQuotes [] (.member members key :: stack)) := rfl
      exact feed_quotedChars opened text

theorem feed_memberChars {reader : Reader} {members : List (String × Value)}
    (opened : reader.feed ['"'] = .ok (inQuotes [] (.object members :: stack)))
    (member : String × Option String) :
    reader.feed (memberChars member) = .ok
      { mode := .separator
        stack := .object (setEntry member.1 (valueOf member.2) members) :: stack } := by
  have colon : feed { mode := .colon, stack := .member members member.1 :: stack } [':'] =
      .ok { mode := .value, stack := .member members member.1 :: stack } := rfl
  change reader.feed (quotedChars member.1 ++ ([':'] ++ valueChars member.2)) = _
  rw [feed_append_of_ok (feed_quotedChars opened member.1), feed_append_of_ok colon]
  exact feed_valueChars member.2 members member.1

/-- The members an object has after those were read. -/
def gather (members : List (String × Option String)) : List (String × Value) :=
  members.foldl (fun all member => setEntry member.1 (valueOf member.2) all) []

theorem gather_append_singleton (members : List (String × Option String))
    (member : String × Option String) :
    gather (members ++ [member]) = setEntry member.1 (valueOf member.2) (gather members) := by
  unfold gather
  rw [List.foldl_append]
  rfl

theorem gather_eq {members : List (String × Option String)}
    (distinct : (members.map Prod.fst).Nodup) :
    gather members = members.map fun member => (member.1, valueOf member.2) := by
  have folded : (members.map fun member => (member.1, valueOf member.2)).foldl
      (fun all entry => setEntry entry.1 entry.2 all) [] = gather members := by
    rw [List.foldl_map]
    rfl
  rw [← folded]
  exact foldl_setEntry (by simpa [Function.comp_def] using distinct)

/-- The reader before the next member of an object. -/
def beforeMember (stack : List Frame) (done : List (String × Option String)) : Reader :=
  { mode := if done.isEmpty then .firstKey else .nextKey, stack := .object (gather done) :: stack }

def afterMember (stack : List Frame) (done : List (String × Option String)) : Reader :=
  { mode := .separator, stack := .object (gather done) :: stack }

theorem feed_members {members : List (String × Option String)} (nonempty : members ≠ []) :
    (beforeMember stack []).feed ([','].intercalate (members.map memberChars)) =
      .ok (afterMember stack members) := by
  refine feed_intercalate ?_ ?_ nonempty []
  · intro done member
    have opened : (beforeMember stack done).feed ['"'] =
        .ok (inQuotes [] (.object (gather done) :: stack)) := by
      cases done <;> rfl
    rw [feed_memberChars opened, ← gather_append_singleton]
    rfl
  · intro done some
    cases done with
    | nil => exact absurd rfl some
    | cons => rfl

/-- An object is read from wherever a brace opens one. -/
theorem feed_objectChars {reader : Reader}
    (opened : reader.feed ['\x7b'] = .ok (beforeMember stack []))
    {members : List (String × Option String)} (distinct : (members.map Prod.fst).Nodup) :
    reader.feed (objectChars members) =
      deliver (.object (members.map fun member => (member.1, valueOf member.2))) stack := by
  change reader.feed (['\x7b'] ++ ([','].intercalate (members.map memberChars) ++ ['\x7d'])) = _
  rw [feed_append_of_ok opened, ← gather_eq distinct]
  by_cases empty : members = []
  · subst empty
    exact bind_pure _
  · rw [feed_append_of_ok (feed_members empty)]
    exact bind_pure _

theorem nodup_names_ofRow (row : List (String × Option String)) :
    ((ofRow row).map Prod.fst).Nodup := by
  unfold ofRow
  suffices kept : ∀ members : List (String × Option String), (members.map Prod.fst).Nodup →
      ((row.foldl (fun members member => setEntry member.1 member.2 members) members).map
        Prod.fst).Nodup from kept [] List.nodup_nil
  induction row with
  | nil => exact fun members distinct => distinct
  | cons member rest ih => exact fun members distinct => ih _ (nodup_names_setEntry distinct)

def rowValue (row : List (String × Option String)) : Value :=
  .object ((ofRow row).map fun member => (member.1, valueOf member.2))

/-- The reader before the next row. -/
def beforeRow (done : List (List (String × Option String))) : Reader :=
  { mode := if done.isEmpty then .firstElement else .value
    stack := [.array (done.map rowValue).reverse] }

def afterRow (done : List (List (String × Option String))) : Reader :=
  { mode := .separator, stack := [.array (done.map rowValue).reverse] }

theorem feed_rows {rows : List (List (String × Option String))} (nonempty : rows ≠ []) :
    (beforeRow []).feed ([','].intercalate (rows.map fun row => objectChars (ofRow row))) =
      .ok (afterRow rows) := by
  refine feed_intercalate ?_ ?_ nonempty []
  · intro done row
    have opened : (beforeRow done).feed ['\x7b'] =
        .ok (beforeMember [.array (done.map rowValue).reverse] []) := by
      cases done <;> rfl
    rw [feed_objectChars opened (nodup_names_ofRow row), afterRow, List.map_append,
      List.reverse_append]
    rfl
  · intro done some
    cases done with
    | nil => exact absurd rfl some
    | cons => rfl

theorem feed_render (rows : List (List (String × Option String))) :
    feed {} (render rows) =
      .ok { mode := .complete (.array (rows.map rowValue)), stack := [] } := by
  have opened : feed {} ['['] = .ok (beforeRow []) := rfl
  change feed {} (['['] ++ ([','].intercalate (rows.map fun row => objectChars (ofRow row)) ++
    [']', '\n'])) = _
  rw [feed_append_of_ok opened]
  by_cases empty : rows = []
  · subst empty
    rfl
  · have closed (elements : List Value) :
        feed { mode := .separator, stack := [.array elements] } [']', '\n'] =
          .ok { mode := .complete (.array elements.reverse), stack := [] } := rfl
    rw [feed_append_of_ok (feed_rows empty), afterRow, closed, List.reverse_reverse]

/-- Objects that are written are read as the same objects. -/
theorem read_render (rows : List (List (String × Option String))) :
    Json.read (String.ofList (render rows)).toUTF8.toList = .ok (.array (rows.map rowValue)) := by
  unfold Json.read
  rw [toList_toUTF8, String.toList_ofList]
  change (feed {} (render rows) >>= finish) = _
  rw [feed_render]
  rfl

theorem setEntry_map (cell : String → Option String) (name : String) (names : List String) :
    setEntry name (cell name) (names.map fun name => (name, cell name)) =
      (if name ∈ names then names else names ++ [name]).map fun name => (name, cell name) := by
  split
  next known =>
    induction names with
    | nil => cases known
    | cons first rest ih =>
        rw [List.map_cons, setEntry]
        split
        next same => rw [← same]
        next other => rw [ih ((List.mem_cons.mp known).resolve_left (Ne.symm other))]
  next new => rw [setEntry_of_new (by simpa using new), List.map_append, List.map_singleton]

/-- Of a repeated member the first occurrence counts, in the order of the members. -/
theorem ofRow_map (cell : String → Option String) (names : List String) :
    ofRow (names.map fun name => (name, cell name)) =
      names.eraseDups.map fun name => (name, cell name) := by
  unfold ofRow List.eraseDups List.eraseDupsBy
  suffices read : ∀ seen : List String,
      (names.map fun name => (name, cell name)).foldl
        (fun members member => setEntry member.1 member.2 members)
        (seen.reverse.map fun name => (name, cell name)) =
      (List.eraseDupsBy.loop (· == ·) names seen).map fun name => (name, cell name) from read []
  induction names with
  | nil => exact fun seen => rfl
  | cons name rest ih =>
      intro seen
      have tested : seen.any (name == ·) = decide (name ∈ seen) :=
        List.any_beq.trans (List.contains_eq_mem name seen)
      rw [List.map_cons, List.foldl_cons, setEntry_map, List.eraseDupsBy.loop, tested]
      by_cases known : name ∈ seen
      · simp only [List.mem_reverse, if_pos known, decide_eq_true known, ih]
      · simp only [List.mem_reverse, if_neg known, decide_eq_false known]
        rw [← List.reverse_cons, ih]

end Objects

section Selected

variable {ρ : Type} {columns : List (Column ρ)} {fields : List String}

/-- Columns with a cell for every row. -/
def AreTotal (columns : List (Column ρ)) : Prop :=
  ∀ column ∈ columns, ∀ row, ∃ cell, column.cell row = .ok cell

/-- The cell of a row in the column of that name. -/
def cell (columns : List (Column ρ)) (name : String) (row : ρ) : String :=
  ((columns.find? fun column => column.name == name).bind fun column =>
    (column.cell row).toOption).getD ""

/-- What a cell says, if it is defined. -/
def meaning (cell : String) : Option String :=
  if cell = notAvailable then none else some cell

theorem exists_findColumn (total : AreTotal columns) {name : String}
    (known : name ∈ columns.map Column.name) :
    ∃ column ∈ columns, findColumn columns name = .ok column ∧ column.name = name ∧
      ∀ row, column.cell row = .ok (cell columns name row) := by
  obtain ⟨own, member, named⟩ := List.mem_map.mp known
  cases found : columns.find? fun column => column.name == name with
  | none => exact absurd (by simpa using named) (List.find?_eq_none.mp found own member)
  | some column =>
      have within := List.mem_of_find?_eq_some found
      refine ⟨column, within, by simp only [findColumn, found], ?_, fun row => ?_⟩
      · simpa using List.find?_some found
      · obtain ⟨shown, isCell⟩ := total column within row
        simp only [cell, found, Option.bind_some, isCell]
        rfl

theorem exists_columns (total : AreTotal columns)
    (known : ∀ name ∈ fields, name ∈ columns.map Column.name) :
    ∃ selected, fields.mapM (findColumn columns) = .ok selected ∧
      ∀ row, rowCells selected row = .ok (fields.map fun name => cell columns name row) := by
  induction fields with
  | nil => exact ⟨[], rfl, fun row => rfl⟩
  | cons name rest ih =>
      obtain ⟨here, later⟩ := List.forall_mem_cons.mp known
      obtain ⟨column, _, found, _, shows⟩ := exists_findColumn total here
      obtain ⟨others, areOthers, otherCells⟩ := ih later
      refine ⟨column :: others, ?_, fun row => ?_⟩
      · rw [List.mapM_cons, found, areOthers]
        rfl
      · have cells := otherCells row
        unfold rowCells at cells ⊢
        rw [List.mapM_cons, shows, cells]
        rfl

theorem render_eq (total : AreTotal columns)
    (known : ∀ name ∈ fields, name ∈ columns.map Column.name) (options : Options) (rows : List ρ) :
    render columns fields options rows = .ok (String.ofList (renderCells fields options
      (rows.map fun row => fields.map fun name => cell columns name row))) := by
  obtain ⟨selected, found, shows⟩ := exists_columns total known
  have cells : rows.mapM (rowCells selected) =
      .ok (rows.map fun row => fields.map fun name => cell columns name row) := by
    induction rows with
    | nil => rfl
    | cons row rest ih =>
        rw [List.mapM_cons, shows, ih]
        rfl
  unfold render
  rw [found]
  change (rows.mapM (rowCells selected) >>= _) = _
  rw [cells]
  rfl

theorem select_ok {aliases : Aliases} {text : String} {selection : Selection}
    (selected : select columns aliases text = .ok selection) :
    selection.fields ≠ [] ∧ ∀ name ∈ selection.fields, name ∈ columns.map Column.name := by
  unfold select at selected
  simp only at selected
  split at selected
  · cases selected
  next some =>
    cases selected
    refine ⟨by simpa using some, fun name member => ?_⟩
    exact of_decide_eq_true (List.mem_filter.mp member).2

/-- The text of a table says what the cells say: in records, where an undefined cell is empty, and
in objects, where it is null. -/
structure IsCarried (columns : List (Column ρ)) (fields : List String) (rows : List ρ) : Prop where
  known : ∀ name ∈ fields, ∃ column ∈ columns, column.name = name ∧
    ∀ row, column.cell row = .ok (cell columns name row)
  csv : ∀ header, ∃ text, render columns fields { mode := .csv, header } rows = .ok text ∧
    Csv.read? text.toList = some ((if header then [fields] else []) ++
      rows.map fun row => fields.map fun name => (meaning (cell columns name row)).getD "")
  csvNamed : ∀ header, ∃ text, render columns fields { mode := .csvNamed, header } rows = .ok text ∧
    Csv.read? text.toList = some ((if header then [fields] else []) ++
      rows.map fun row => fields.map fun name =>
        name ++ "=" ++ (meaning (cell columns name row)).getD "")
  json : ∀ header, ∃ text, render columns fields { mode := .json, header } rows = .ok text ∧
    Json.read text.toUTF8.toList = .ok (.array (rows.map fun row =>
      .object (fields.eraseDups.map fun name =>
        (name, Objects.valueOf (meaning (cell columns name row))))))

theorem csvField_eq (cell : String) : csvField cell = (meaning cell).getD "" := by
  unfold csvField meaning
  split <;> rfl

/-- Records of the selected fields can be read back, as there is a field in each. -/
theorem read?_records (nonempty : fields ≠ []) (header : Bool) (rows : List ρ)
    (value : String → ρ → String) :
    Csv.read? (String.ofList (Csv.render ((if header then [fields] else []) ++
      rows.map fun row => fields.map fun name => value name row))).toList =
    some ((if header then [fields] else []) ++
      rows.map fun row => fields.map fun name => value name row) := by
  rw [String.toList_ofList]
  refine Csv.read?_render fun record member => ?_
  rcases List.mem_append.mp member with first | later
  · cases header with
    | false => cases first
    | true => exact List.mem_singleton.mp first ▸ nonempty
  · obtain ⟨row, _, rfl⟩ := List.mem_map.mp later
    simpa using nonempty

section Forms

variable (total : AreTotal columns) (nonempty : fields ≠ [])
  (known : ∀ name ∈ fields, name ∈ columns.map Column.name) (header : Bool) (rows : List ρ)
include total known

include nonempty in
theorem exists_csv :
    ∃ text, render columns fields { mode := .csv, header } rows = .ok text ∧
      Csv.read? text.toList = some ((if header then [fields] else []) ++
        rows.map fun row => fields.map fun name => (meaning (cell columns name row)).getD "") := by
  refine ⟨_, render_eq total known _ rows, ?_⟩
  rw [← read?_records nonempty]
  simp only [renderCells, List.map_map, Function.comp_def, csvField_eq]

include nonempty in
theorem exists_csvNamed :
    ∃ text, render columns fields { mode := .csvNamed, header } rows = .ok text ∧
      Csv.read? text.toList = some ((if header then [fields] else []) ++
        rows.map fun row => fields.map fun name =>
          name ++ "=" ++ (meaning (cell columns name row)).getD "") := by
  refine ⟨_, render_eq total known _ rows, ?_⟩
  rw [← read?_records nonempty]
  simp only [renderCells, List.map_map, Function.comp_def, List.zipWith_map_right,
    List.zipWith_self, csvNamedField, csvField_eq]

theorem exists_json :
    ∃ text, render columns fields { mode := .json, header } rows = .ok text ∧
      Json.read text.toUTF8.toList = .ok (.array (rows.map fun row =>
        .object (fields.eraseDups.map fun name =>
          (name, Objects.valueOf (meaning (cell columns name row)))))) := by
  refine ⟨_, render_eq total known _ rows, ?_⟩
  simp only [renderCells, List.map_map, Function.comp_def, List.zipWith_map_right,
    List.zipWith_self]
  rw [Objects.read_render]
  simp only [List.map_map, Function.comp_def, Objects.rowValue, jsonMember, Objects.ofRow_map]
  rfl

end Forms

theorem isCarried (total : AreTotal columns) {aliases : Aliases} {text : String}
    {selection : Selection} (selected : select columns aliases text = .ok selection)
    (rows : List ρ) : IsCarried columns selection.fields rows := by
  obtain ⟨nonempty, known⟩ := select_ok selected
  refine ⟨fun name member => ?_, fun header => exists_csv total nonempty known header rows,
    fun header => exists_csvNamed total nonempty known header rows,
    fun header => exists_json total known header rows⟩
  obtain ⟨column, within, _, named, shows⟩ := exists_findColumn total (known name member)
  exact ⟨column, within, named, shows⟩

/-- Two columns of text. -/
def notes : List (Column (String × String)) :=
  [.always "name" Prod.fst, .always "note" Prod.snd]

theorem isCarried_notes :
    AreTotal notes ∧
      select notes [("both", ["name", "note"])] "note,json,both" =
        .ok { fields := ["note", "name", "note"], others := ["json"] } ∧
      IsCarried notes ["note", "name", "note"] [("a, \"b\"", "n/a"), ("", "1\r\n2\x01")] := by
  have total : AreTotal notes := by
    intro column member row
    simp only [notes, List.mem_cons, List.not_mem_nil, or_false] at member
    rcases member with rfl | rfl <;> exact ⟨_, rfl⟩
  have selected : select notes [("both", ["name", "note"])] "note,json,both" =
      .ok { fields := ["note", "name", "note"], others := ["json"] } := by decide
  exact ⟨total, selected, isCarried total selected _⟩

end Selected

end HostTimeline.Table
