import HostTimeline.Binary64

/-!
JSON values.  An integer literal that fits 64 bits stays an integer; any other
number is held in binary64.
-/

namespace HostTimeline.Json

inductive Number where
  | integer (value : Int)
  | binary (value : Float)

inductive Value where
  | null
  | bool (value : Bool)
  | number (value : Number)
  | text (value : String)
  | array (elements : List Value)
  /-- No key occurs twice. -/
  | object (members : List (String × Value))

def Number.toFloat : Number → Float
  | .integer value => Float.ofInt value
  | .binary value => value

end HostTimeline.Json
