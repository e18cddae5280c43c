/-!
Records of comma-separated fields, one a line.
-/

namespace HostTimeline.Table.Csv

/-- Commas, quotes and line breaks have to be quoted. -/
def isSpecial (char : Char) : Bool :=
  char == ',' || char == '"' || char == '\n' || char == '\r'

/-- Writes a quote twice. -/
def doubleQuote (char : Char) : List Char :=
  if char = '"' then ['"', '"'] else [char]

def fieldChars (field : List Char) : List Char :=
  if field.any isSpecial then
    '"' :: (field.flatMap doubleQuote ++ ['"'])
  else
    field

/-- A single empty field is quoted, since its line would be empty. -/
def recordChars (fields : List (List Char)) : List Char :=
  (if fields = [[]] then ['"', '"'] else [','].intercalate (fields.map fieldChars)) ++ ['\n']

def render (records : List (List String)) : List Char :=
  records.flatMap fun fields => recordChars (fields.map String.toList)

end HostTimeline.Table.Csv
