import HostTimeline.Entries
import HostTimeline.Json.Printer

/-!
Rows as a JSON array of objects.
-/

namespace HostTimeline.Table.Objects

/-- The members in order of their first occurrence; of a repeated key the last
value counts. -/
def ofRow (row : List (String × Option String)) : List (String × Option String) :=
  row.foldl (fun members member => setEntry member.1 member.2 members) []

def valueChars : Option String → List Char
  | none => "null".toList
  | some text => Json.quotedChars text

def memberChars (member : String × Option String) : List Char :=
  Json.quotedChars member.1 ++ ':' :: valueChars member.2

def objectChars (members : List (String × Option String)) : List Char :=
  '{' :: ([','].intercalate (members.map memberChars) ++ ['}'])

def render (rows : List (List (String × Option String))) : List Char :=
  '[' :: ([','].intercalate (rows.map fun row => objectChars (ofRow row)) ++ [']', '\n'])

end HostTimeline.Table.Objects
