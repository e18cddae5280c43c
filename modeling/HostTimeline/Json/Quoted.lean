import HostTimeline.Json.Numeral

/-!
Quoted strings, taken in one byte at a time.  The content is collected as UTF-8,
escapes included, and is checked at the closing quote.
-/

namespace HostTimeline.Json

/-- Where in a quoted string the reading is. -/
inductive QuotedStage where
  | plain
  | escape
  /-- The hexadecimal digits of a code unit; `high` is the surrogate before it. -/
  | unit (high : Option Nat) (digits : List UInt8)
  /-- After a high surrogate: a backslash has to follow, then a `u`. -/
  | lowBackslash (high : Nat)
  | lowMark (high : Nat)
deriving Repr, DecidableEq

/-- The content so far, its last byte first. -/
structure Quoted where
  content : List UInt8 := []
  stage : QuotedStage := .plain

namespace Quoted

def hexValue? (byte : UInt8) : Option Nat :=
  let char := Char.ofUInt8 byte
  if char.isDigit then some (char.toNat - '0'.toNat)
  else if 'a' ≤ char ∧ char ≤ 'f' then some (char.toNat - 'a'.toNat + 10)
  else if 'A' ≤ char ∧ char ≤ 'F' then some (char.toNat - 'A'.toNat + 10)
  else none

def unitValue? (digits : List UInt8) : Option Nat :=
  digits.foldlM (fun value byte => (hexValue? byte).map (16 * value + ·)) 0

def isHighSurrogate (unit : Nat) : Bool :=
  decide (0xD800 ≤ unit) && decide (unit < 0xDC00)

def isLowSurrogate (unit : Nat) : Bool :=
  decide (0xDC00 ≤ unit) && decide (unit < 0xE000)

def addChar (quoted : Quoted) (char : Char) : Quoted :=
  { content := (String.utf8EncodeChar char).reverse ++ quoted.content, stage := .plain }

/-- The character of a short escape. -/
def shortEscape? (char : Char) : Option Char :=
  match char with
  | '"' => some '"'
  | '\\' => some '\\'
  | '/' => some '/'
  | 'b' => some '\x08'
  | 'f' => some '\x0c'
  | 'n' => some '\n'
  | 'r' => some '\r'
  | 't' => some '\t'
  | _ => none

/-- Takes in a code unit, which is a character by itself or half of one. -/
def addUnit (quoted : Quoted) (high : Option Nat) (unit : Nat) : Except Fault Quoted :=
  match high with
  | none =>
      if isLowSurrogate unit then .error .malformed
      else if isHighSurrogate unit then .ok { quoted with stage := .lowBackslash unit }
      else .ok (quoted.addChar (Char.ofNat unit))
  | some high =>
      if isLowSurrogate unit then
        .ok (quoted.addChar (Char.ofNat (0x10000 + (high - 0xD800) * 0x400 + (unit - 0xDC00))))
      else
        .error .malformed

/-- The content as a string, if it is UTF-8. -/
def close (quoted : Quoted) : Except Fault String :=
  match String.fromUTF8? ⟨quoted.content.reverse.toArray⟩ with
  | some text => .ok text
  | none => .error .malformed

/-- What a byte leads to: more of the string, or its end. -/
inductive Step where
  | more (quoted : Quoted)
  | closed (text : String)

def step (quoted : Quoted) (byte : UInt8) : Except Fault Step :=
  let char := Char.ofUInt8 byte
  match quoted.stage with
  | .plain =>
      if char = '"' then quoted.close.map .closed
      else if char = '\\' then .ok (.more { quoted with stage := .escape })
      else if byte < 0x20 then .error .malformed
      else .ok (.more { quoted with content := byte :: quoted.content })
  | .escape =>
      if char = 'u' then
        .ok (.more { quoted with stage := .unit none [] })
      else
        match shortEscape? char with
        | some char => .ok (.more (quoted.addChar char))
        | none => .error .malformed
  | .unit high digits =>
      let digits := digits ++ [byte]
      if digits.length < 4 then
        .ok (.more { quoted with stage := .unit high digits })
      else
        match unitValue? digits with
        | some unit => (quoted.addUnit high unit).map .more
        | none => .error .malformed
  | .lowBackslash high =>
      if char = '\\' then .ok (.more { quoted with stage := .lowMark high })
      else .error .malformed
  | .lowMark high =>
      if char = 'u' then .ok (.more { quoted with stage := .unit (some high) [] })
      else .error .malformed

end Quoted

end HostTimeline.Json
