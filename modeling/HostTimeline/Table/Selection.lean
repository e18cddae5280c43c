import HostTimeline.Text.Split

/-!
What a table shows and how: a list of words, each of which is a field, an alias
for several fields, or a word that controls the form of the output.
-/

namespace HostTimeline.Table

/-- Names that stand for lists of fields. -/
abbrev Aliases :=
  List (String × List String)

inductive Mode where
  | fixed
  | csv
  | csvNamed
  | json
  | awk
deriving Repr, DecidableEq

structure Options where
  mode : Mode
  header : Bool
deriving Repr, DecidableEq

/-- The selected fields in order, and the words that name no field. -/
structure Selection where
  fields : List String
  others : List String
deriving Repr, DecidableEq

namespace Selection

/-- What a word stands for: itself if it is a field, or else the fields of an alias. -/
def expand (known : List String) (aliases : Aliases) (word : String) : List String :=
  if word ∈ known then [word] else (aliases.lookup word).getD [word]

/-- All words of a list, with aliases expanded in place. -/
def ofWords (known : List String) (aliases : Aliases) (words : List String) : Selection :=
  let expanded := words.flatMap (expand known aliases)
  { fields := expanded.filter (· ∈ known)
    others := expanded.filter (· ∉ known) }

def ofText (known : List String) (aliases : Aliases) (text : String) : Selection :=
  ofWords known aliases (Text.words text)

/-- The first control word that is present decides. -/
def mode (selection : Selection) : Mode :=
  if "csvnamed" ∈ selection.others then .csvNamed
  else if "csv" ∈ selection.others then .csv
  else if "json" ∈ selection.others then .json
  else if "awk" ∈ selection.others then .awk
  else .fixed

/-- Fixed columns have a header unless it is switched off, comma-separated ones only
if it is switched on, and the other forms none. -/
def header (selection : Selection) : Bool :=
  match selection.mode with
  | .fixed => "noheader" ∉ selection.others
  | .csv | .csvNamed => "header" ∈ selection.others
  | .json | .awk => false

def options (selection : Selection) : Options :=
  { mode := selection.mode, header := selection.header }

end Selection

end HostTimeline.Table
