import HostTimeline.Decimal.Fixed
import HostTimeline.Table.Awk
import HostTimeline.Table.Csv
import HostTimeline.Table.Fixed
import HostTimeline.Table.Objects
import HostTimeline.Table.Selection

/-!
Tables: named columns over rows of one type, the selection of fields to show, and
their text in one of five forms.
-/

namespace HostTimeline

inductive TableError where
  | noFields
  | unknownField (name : String)
  /-- A row has no value for a column. -/
  | valueMissing (column : String)
deriving Repr, DecidableEq

def TableError.message : TableError → String
  | .noFields => "No output fields were selected"
  | .unknownField name => "Unknown field " ++ name
  | .valueMissing column => "No value for field " ++ column

namespace Table

/-- The cell of a value that is not defined. -/
def notAvailable : String :=
  "n/a"

/-- The cell of an amount, if it is defined. -/
def optionalCell : Option Float → String
  | some value => Binary64.amountText value
  | none => notAvailable

structure Column (ρ : Type) where
  name : String
  cell : ρ → Except TableError String

/-- A column with a value in every row. -/
def Column.always {ρ : Type} (name : String) (cell : ρ → String) : Column ρ :=
  { name, cell := fun row => .ok (cell row) }

/-- An undefined value is an empty field. -/
def csvField (cell : String) : String :=
  if cell = notAvailable then "" else cell

def csvNamedField (name cell : String) : String :=
  name ++ "=" ++ csvField cell

/-- An undefined value is null. -/
def jsonMember (name cell : String) : String × Option String :=
  (name, if cell = notAvailable then none else some cell)

/-- The text of rows of cells, one cell per field. -/
def renderCells (fields : List String) (options : Options) (rows : List (List String)) :
    List Char :=
  let header := if options.header then [fields] else []
  match options.mode with
  | .fixed => Fixed.render fields.length (header ++ rows)
  | .csv => Csv.render (header ++ rows.map fun row => row.map csvField)
  | .csvNamed => Csv.render (header ++ rows.map fun row => fields.zipWith csvNamedField row)
  | .json => Objects.render (rows.map fun row => fields.zipWith jsonMember row)
  | .awk => Awk.render rows

variable {ρ : Type}

def findColumn (columns : List (Column ρ)) (name : String) : Except TableError (Column ρ) :=
  match columns.find? fun column => column.name == name with
  | some column => .ok column
  | none => .error (.unknownField name)

def rowCells (columns : List (Column ρ)) (row : ρ) : Except TableError (List String) :=
  columns.mapM fun column => column.cell row

/-- The text of a table of the given fields. -/
def render (columns : List (Column ρ)) (fields : List String) (options : Options)
    (rows : List ρ) : Except TableError String := do
  let selected ← fields.mapM (findColumn columns)
  let cells ← rows.mapM (rowCells selected)
  return String.ofList (renderCells fields options cells)

/-- The selection a text describes.  At least one field has to be selected. -/
def select (columns : List (Column ρ)) (aliases : Aliases) (text : String) :
    Except TableError Selection :=
  let selection := Selection.ofText (columns.map Column.name) aliases text
  if selection.fields.isEmpty then .error .noFields else .ok selection

end Table

end HostTimeline
