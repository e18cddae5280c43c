/-!
Rows as words separated by single spaces.
-/

namespace HostTimeline.Table.Awk

/-- A cell becomes one word. -/
def wordChars (cell : String) : List Char :=
  cell.toList.map fun char => if char = ' ' then '_' else char

def lineChars (row : List String) : List Char :=
  [' '].intercalate (row.map wordChars) ++ ['\n']

def render (rows : List (List String)) : List Char :=
  rows.flatMap lineChars

end HostTimeline.Table.Awk
