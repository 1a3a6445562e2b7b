/-
# Recorded runs

A bench is a host together with what happens on it: the calls made, in order, the log lines, a
store that lives in memory, and the settings in force. Recording changes nothing that a run can
see, so what is shown of recorded runs over every host holds of all runs.
-/
import SymbolJump.Host

namespace SymbolJump

/-- A call that a run makes on its surroundings. -/
inductive Call
  | query (text : String)
  | findFiles (wanted excluded : Value) (limit : Option Int)
  | load (path : String)
  | pick (prompt : String) (candidates : List Candidate)
  | openProject (path : String) (newWindow : Bool)
  | showError (message : String)
  | reveal (location : Location)
  | openSearch (text : String)
  | wait (milliseconds : Nat)
  | put (key : String) (value : Json)
deriving DecidableEq

/-- Write a value into fields; null deletes. -/
def Fields.write (fields : Fields) (key : String) (value : Json) : Fields :=
  match value with
  | .null => fields.erase key
  | value => fields.set key value

/-- A value that was written is read back, null included. -/
@[simp]
theorem Fields.getOrNull_write_self (fields : Fields) (key : String) (value : Json) :
    (fields.write key value).getOrNull key = value := by
  cases value <;> simp [Fields.write, Fields.getOrNull]

/-- A host and what happens on it. -/
structure Bench (η : Type) where
  host : η
  calls : List Call := []
  lines : List LogLine := []
  values : Fields := []
  settings : Except Fault Settings

namespace Bench

variable {η α : Type}

/-- Record a call. -/
def record (call : Call) : Act (Bench η) Unit :=
  modify fun bench => { bench with calls := bench.calls ++ [call] }

/-- An act of the host. -/
def onHost (act : Act η α) : Act (Bench η) α :=
  act.onPart Bench.host fun host bench => { bench with host }

/-- A recorded act of the host. -/
def recorded (call : Call) (act : Act η α) : Act (Bench η) α := do
  record call
  onHost act

/-- A host with its calls recorded. -/
def hostOf (host : Host η) : Host (Bench η) where
  query text := recorded (.query text) (host.query text)
  findFiles wanted excluded limit :=
    recorded (.findFiles wanted excluded limit) (host.findFiles wanted excluded limit)
  load path := recorded (.load path) (host.load path)
  pick prompt candidates := recorded (.pick prompt candidates) (host.pick prompt candidates)
  openProject path newWindow :=
    recorded (.openProject path newWindow) (host.openProject path newWindow)
  showError message := recorded (.showError message) (host.showError message)
  reveal location := recorded (.reveal location) (host.reveal location)
  openSearch text := recorded (.openSearch text) (host.openSearch text)
  wait milliseconds := recorded (.wait milliseconds) (host.wait milliseconds)
  roots bench := host.roots bench.host
  documents bench := host.documents bench.host
  log line bench := { bench with lines := bench.lines ++ [line] }

/-- The store in memory, with every write recorded. -/
def store : Store (Bench η) where
  get key := do return (← get).values.getOrNull key
  put key value := do
    record (.put key value)
    modify fun bench => { bench with values := bench.values.write key value }

/-- The settings in force. -/
def loadSettings : Act (Bench η) Settings := do
  Act.ofExcept (← get).settings

/-- The surroundings of an opener on a bench. -/
def environment (host : Host η) : Environment (Bench η) where
  host := hostOf host
  store := store
  settings := loadSettings

end Bench

end SymbolJump
