import HostTimeline.Command.Request
import HostTimeline.TimeArgument

/-!
The arguments of the command line: a subcommand, options in any order, and at most
one operand.  No option may be given twice.
-/

namespace HostTimeline.Command

inductive Flag where
  | condense
  | wholeSeconds
  | verbose
  | everyState
deriving Repr, DecidableEq

/-- Options with a value. -/
inductive Setting where
  | earliest
  | latest
  | format
  | resource
deriving Repr, DecidableEq

/-- An argument once it is understood. -/
inductive Word where
  | flag (flag : Flag)
  | setting (setting : Setting) (value : String)
  | operand (text : String)
deriving Repr, DecidableEq

/-- The options of a subcommand by their long names. -/
structure Options where
  flags : List (String × Flag)
  settings : List (String × Setting)

def commonOptions : Options :=
  { flags := [("minimize", .condense), ("discretize", .wholeSeconds), ("verbose", .verbose)]
    settings := [("from", .earliest), ("to", .latest), ("fmt", .format)] }

namespace Subject

/-- The subject a subcommand names. -/
def ofName? : String → Option Subject
  | "states" => some .states
  | "hosts" => some (.hosts false)
  | "usage" => some .usage
  | "capacity" => some .capacity
  | "resources" => some (.resources .slots)
  | _ => none

def options : Subject → Options
  | .hosts _ => { commonOptions with flags := ("all-states", .everyState) :: commonOptions.flags }
  | .resources _ =>
      { commonOptions with settings := ("quantity", .resource) :: commonOptions.settings }
  | _ => commonOptions

end Subject

namespace Word

def shortFlag? : Char → Option Flag
  | 'v' => some .verbose
  | _ => none

def shortSetting? : Char → Option Setting
  | 'f' => some .earliest
  | 't' => some .latest
  | _ => none

/-- Whether an argument is taken for options.  A single dash is none. -/
def isOption (argument : String) : Bool :=
  match argument.toList with
  | '-' :: _ :: _ => true
  | _ => false

/-- The short options behind one dash.  The first that takes a value ends them; its
value follows it, or is the next argument. -/
def cluster : List Char → Option (List Word × Option Setting)
  | [] => some ([], none)
  | char :: rest =>
      match shortFlag? char, shortSetting? char with
      | some given, _ => (cluster rest).map fun (words, open?) => (.flag given :: words, open?)
      | none, some given =>
          match rest with
          | [] => some ([], some given)
          | '=' :: value => some ([.setting given (String.ofList value)], none)
          | value => some ([.setting given (String.ofList value)], none)
      | none, none => none

/-- A long option without its dashes, and the setting whose value is still to come. -/
def long (options : Options) (text : List Char) : Option (List Word × Option Setting) :=
  let name := String.ofList (text.takeWhile (· != '='))
  match text.dropWhile (· != '=') with
  | [] =>
      match options.flags.lookup name, options.settings.lookup name with
      | some given, _ => some ([.flag given], none)
      | none, some given => some ([], some given)
      | none, none => none
  | _ :: value =>
      (options.settings.lookup name).map fun given =>
        ([.setting given (String.ofList value)], none)

/-- Understands arguments from left to right; `open?` is the setting that waits for
its value.  After a double dash only operands follow. -/
def readAll (options : Options) (open? : Option Setting) : List String → Option (List Word)
  | [] => if open?.isNone then some [] else none
  | argument :: rest =>
      match open? with
      | some given =>
          if isOption argument then none
          else (readAll options none rest).map (.setting given argument :: ·)
      | none =>
          match argument.toList with
          | ['-', '-'] => some (rest.map .operand)
          | '-' :: '-' :: text => do
              let (words, open?) ← long options text
              (readAll options open? rest).map (words ++ ·)
          | '-' :: char :: text => do
              let (words, open?) ← cluster (char :: text)
              (readAll options open? rest).map (words ++ ·)
          | _ => (readAll options none rest).map (.operand argument :: ·)

/-- What may be given only once. -/
inductive Slot where
  | flag (flag : Flag)
  | setting (setting : Setting)
  | operand
deriving Repr, DecidableEq

def slot : Word → Slot
  | .flag given => .flag given
  | .setting given _ => .setting given
  | .operand _ => .operand

def valueOf? (wanted : Setting) (words : List Word) : Option String :=
  words.findSome? fun word =>
    match word with
    | .setting given value => if given = wanted then some value else none
    | _ => none

def operand? (words : List Word) : Option String :=
  words.findSome? fun word =>
    match word with
    | .operand text => some text
    | _ => none

end Word

def readResource? : String → Option Resource
  | "slots" => some .slots
  | "memory" => some .memory
  | _ => none

/-- Reads the value of an option, if it is given; a value that cannot be read is a
bad argument. -/
def readGiven {β : Type} (read : String → Option β) : Option String → Option (Option β)
  | none => some none
  | some text => (read text).map some

namespace Subject

/-- The subject as its own options change it. -/
def refine (subject : Subject) (everyState : Bool) (resource : Option Resource) : Subject :=
  match subject with
  | .hosts _ => .hosts everyState
  | .resources given => .resources (resource.getD given)
  | subject => subject

end Subject

namespace Request

/-- The request that words make, unless something is given twice or cannot be read. -/
def ofWords (now : Int) (subject : Subject) (words : List Word) : Option Request := do
  guard (words.map Word.slot).Nodup
  let time (edge : DayEdge) (text : String) : Option Float :=
    (TimeArgument.read now edge text.toList).toOption
  let earliest ← readGiven (time .first) (Word.valueOf? .earliest words)
  let latest ← readGiven (time .last) (Word.valueOf? .latest words)
  let resource ← readGiven readResource? (Word.valueOf? .resource words)
  return {
    subject := subject.refine (.flag .everyState ∈ words) resource
    earliest
    latest
    condense := .flag .condense ∈ words
    wholeSeconds := .flag .wholeSeconds ∈ words
    format := Word.valueOf? .format words
    input := Word.operand? words }

/-- The request that the arguments of a subcommand make. -/
def ofArguments (now : Int) (subject : Subject) (arguments : List String) : Option Request := do
  let words ← Word.readAll subject.options none arguments
  ofWords now subject words

end Request

end HostTimeline.Command
