/-!
Power and activity states of a host.  Two degenerate states mark errors; they
are shown and counted as the base state they degrade.
-/

namespace HostTimeline

inductive PowerState where
  | error
  | unknown
  | idle
  | used
  | off
  | poweringOn
  | poweringOff
  | onError
  | offError
deriving Repr, DecidableEq

namespace PowerState

/-- Every state, ascending by code. -/
def all : List PowerState :=
  [.error, .unknown, .idle, .used, .off, .poweringOn, .poweringOff, .onError, .offError]

/-- The states that are drawn over time, in stacking order. -/
def drawn : List PowerState :=
  [.used, .idle, .poweringOff, .poweringOn, .unknown, .error]

/-- The states that summarize a host, ascending by code. -/
def summarized : List PowerState :=
  [.error, .unknown, .idle, .off]

def code : PowerState → Int
  | .error => -2
  | .unknown => -1
  | .idle => 0
  | .used => 1
  | .off => 2
  | .poweringOn => 3
  | .poweringOff => 4
  | .onError => 5
  | .offError => 6

def ofCode? (code : Int) : Option PowerState :=
  all.find? fun state => state.code == code

def label : PowerState → String
  | .error => "error"
  | .unknown => "unknown"
  | .idle => "idle"
  | .used => "used"
  | .off => "off"
  | .poweringOn => "powering on"
  | .poweringOff => "powering off"
  | .onError => "on (err)"
  | .offError => "off (err)"

/-- The state a host is counted in when hosts are counted per state. -/
def base : PowerState → PowerState
  | .onError => .idle
  | .offError => .error
  | state => state

/-- Whether a host in this state offers its slots and memory to the cluster. -/
def isAvailable : PowerState → Bool
  | .idle | .used | .onError => true
  | _ => false

theorem mem_all (state : PowerState) : state ∈ all := by
  cases state <;> decide

@[simp]
theorem ofCode?_code (state : PowerState) : ofCode? state.code = some state := by
  cases state <;> rfl

theorem code_of_ofCode? {code : Int} {state : PowerState}
    (found : ofCode? code = some state) : state.code = code := by
  have agrees := List.find?_some found
  simpa using agrees

end PowerState

end HostTimeline
