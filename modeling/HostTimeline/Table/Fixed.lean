import HostTimeline.Text.Blank

/-!
Columns of fixed width.  A column is as wide as its widest cell counts bytes, and
two spaces stand between columns.
-/

namespace HostTimeline.Table.Fixed

/-- The least width that holds every cell of each column. -/
def widths (columns : Nat) (rows : List (List String)) : List Nat :=
  rows.foldl (fun widths row => widths.zipWith max (row.map String.utf8ByteSize))
    (List.replicate columns 0)

/-- A cell, filled up to a width with spaces, and the space between columns. -/
def cellChars (cell : String) (width : Nat) : List Char :=
  cell.toList.rightpad width ' ' ++ [' ', ' ']

/-- White space at the end of a line is left out. -/
def lineChars (widths : List Nat) (row : List String) : List Char :=
  Text.trimEnd (List.zipWith cellChars row widths).flatten ++ ['\n']

def render (columns : Nat) (rows : List (List String)) : List Char :=
  rows.flatMap (lineChars (widths columns rows))

end HostTimeline.Table.Fixed
