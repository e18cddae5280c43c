/-!
Splitting text at a separator, and joining it again.
-/

namespace HostTimeline.Text

/-- The pieces between separators; a text without one is a single piece. -/
def splitAt (separator : Char) : List Char → List (List Char)
  | [] => [[]]
  | char :: rest =>
      if char = separator then
        [] :: splitAt separator rest
      else
        match splitAt separator rest with
        | [] => [[char]]
        | first :: others => (char :: first) :: others

/-- The words between commas. -/
def words (text : String) : List String :=
  (splitAt ',' text.toList).map String.ofList

end HostTimeline.Text
