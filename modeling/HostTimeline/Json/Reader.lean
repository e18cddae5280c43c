import HostTimeline.Entries
import HostTimeline.Json.Quoted

/-!
The JSON reader, a machine that takes in one byte at a time.  Its stack holds the
arrays and objects that are open.  A byte that cannot follow stops it at once, so
the first fault of a text counts; a text that stops short is told by its end.
-/

namespace HostTimeline.Json

/-- An open array or object, with what it holds so far.  A `member` is an object
whose value for `key` is being read.  Elements are kept last first. -/
inductive Frame where
  | array (elements : List Value)
  | object (members : List (String × Value))
  | member (members : List (String × Value)) (key : String)

/-- What is being read, or may come next. -/
inductive Mode where
  | value
  /-- After an opening bracket: a value or the closing bracket. -/
  | firstElement
  /-- After an opening brace: a key or the closing brace. -/
  | firstKey
  | nextKey
  | colon
  | literal (rest : List Char) (value : Value)
  | numeral (stage : NumeralStage) (numeral : Numeral)
  | quoted (quoted : Quoted)
  /-- After an element or a member: a comma, or the end of what is open. -/
  | separator
  | complete (value : Value)

structure Reader where
  mode : Mode := .value
  stack : List Frame := []

namespace Reader

/-- Arrays and objects are nested less deeply than this. -/
def depthLimit : Nat :=
  128

def isSpace (char : Char) : Bool :=
  char == ' ' || char == '\t' || char == '\n' || char == '\r'

/-- Puts a complete value where it belongs.  Of two members with the same key the
later value counts. -/
def deliver (value : Value) : List Frame → Except Fault Reader
  | [] => .ok { mode := .complete value, stack := [] }
  | .array elements :: rest =>
      .ok { mode := .separator, stack := .array (value :: elements) :: rest }
  | .member members key :: rest =>
      .ok { mode := .separator, stack := .object (setEntry key value members) :: rest }
  | .object _ :: _ => .error .malformed

def openFrame (mode : Mode) (frame : Frame) (stack : List Frame) : Except Fault Reader :=
  if stack.length + 1 < depthLimit then .ok { mode, stack := frame :: stack }
  else .error .malformed

def startValue (stack : List Frame) (char : Char) : Except Fault Reader :=
  match char with
  | '"' => .ok { mode := .quoted {}, stack }
  | '[' => openFrame .firstElement (.array []) stack
  | '{' => openFrame .firstKey (.object []) stack
  | 'n' => .ok { mode := .literal "ull".toList .null, stack }
  | 't' => .ok { mode := .literal "rue".toList (.bool true), stack }
  | 'f' => .ok { mode := .literal "alse".toList (.bool false), stack }
  | char =>
      match Numeral.start? char with
      | some (stage, numeral) => .ok { mode := .numeral stage numeral, stack }
      | none => .error .malformed

/-- A string is the key of a member if an object waits for one. -/
def deliverText (text : String) : List Frame → Except Fault Reader
  | .object members :: rest => .ok { mode := .colon, stack := .member members text :: rest }
  | stack => deliver (.text text) stack

def startKey (stack : List Frame) (char : Char) : Except Fault Reader :=
  if char = '"' then .ok { mode := .quoted {}, stack } else .error .malformed

def closeArray : List Frame → Except Fault Reader
  | .array elements :: rest => deliver (.array elements.reverse) rest
  | _ => .error .malformed

def closeObject : List Frame → Except Fault Reader
  | .object members :: rest => deliver (.object members) rest
  | _ => .error .malformed

/-- Takes in what follows an element or a member. -/
def separate (stack : List Frame) (char : Char) : Except Fault Reader :=
  match stack, char with
  | .array _ :: _, ',' => .ok { mode := .value, stack }
  | .array _ :: _, ']' => closeArray stack
  | .object _ :: _, ',' => .ok { mode := .nextKey, stack }
  | .object _ :: _, '}' => closeObject stack
  | _, _ => .error .malformed

/-- Takes in a character between the parts of a text. -/
def stepBetween (reader : Reader) (char : Char) : Except Fault Reader :=
  if isSpace char then
    .ok reader
  else
    match reader.mode with
    | .value => startValue reader.stack char
    | .firstElement =>
        if char = ']' then closeArray reader.stack else startValue reader.stack char
    | .firstKey =>
        if char = '}' then closeObject reader.stack else startKey reader.stack char
    | .nextKey => startKey reader.stack char
    | .colon => if char = ':' then .ok { reader with mode := .value } else .error .malformed
    | .separator => separate reader.stack char
    | _ => .error .malformed

def step (reader : Reader) (byte : UInt8) : Except Fault Reader :=
  let char := Char.ofUInt8 byte
  match reader.mode with
  | .literal [] _ => .error .malformed
  | .literal [last] value =>
      if char = last then deliver value reader.stack else .error .malformed
  | .literal (next :: rest) value =>
      if char = next then .ok { reader with mode := .literal rest value } else .error .malformed
  | .numeral stage numeral => do
      match ← numeral.next? stage char with
      | some (stage, numeral) => return { reader with mode := .numeral stage numeral }
      | none =>
          let number ← numeral.toNumber
          stepBetween (← deliver (.number number) reader.stack) char
  | .quoted quoted => do
      match ← quoted.step byte with
      | .more quoted => return { reader with mode := .quoted quoted }
      | .closed text => deliverText text reader.stack
  | _ => stepBetween reader char

/-- The value of a text that ends here. -/
def finish (reader : Reader) : Except Fault Value :=
  match reader.mode with
  | .complete value => .ok value
  | .numeral stage numeral =>
      if stage.isComplete then do
        let number ← numeral.toNumber
        if reader.stack.isEmpty then return .number number else throw .endOfText
      else
        .error .endOfText
  | _ => .error .endOfText

end Reader

/-- Reads a whole text. -/
def read (text : List UInt8) : Except Fault Value := do
  (← text.foldlM Reader.step {}).finish

end HostTimeline.Json
