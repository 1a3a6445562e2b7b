/-
# Running a command

A command runs on a machine with a terminal host, a state file and the settings of a
configuration file. Its status is one when the symbol was not found or an error was reported;
failures of the configuration, the files or the editor end it with a line of their own. What other
programs decide is given: how documents are parsed, where the state file is that no command names,
and how deep values may be nested.
-/
import SymbolJump.CommandLine.Arguments
import SymbolJump.Opener
import SymbolJump.Settings.File
import SymbolJump.StateFile
import SymbolJump.Terminal

namespace SymbolJump.CommandLine

/-- How a run ends. -/
inductive Exit
  | status (code : Nat)
  /-- The command line was refused. -/
  | usage (code : Nat)
  /-- A fault that nothing on the way handles. -/
  | fault (fault : Fault)
deriving DecidableEq

/-- What a run finds laid down. -/
structure Installation where
  parse : Settings.Parser
  /-- The state file of an invocation that names none. -/
  defaultState : String
  reach : Json.Reach := {}

variable (installation : Installation)

/-- The settings of an invocation, read anew. -/
def loadSettings (invocation : Invocation) : Act Machine Settings :=
  Machine.ofDisk fun disk => Settings.ofFile installation.parse disk invocation.config

/-- The path of the state file of an invocation. -/
def statePath (invocation : Invocation) : String :=
  invocation.state.getD installation.defaultState

/-- The surroundings of an opener for an invocation. -/
def environment (invocation : Invocation) (terminal : Terminal) : Environment Machine where
  host := terminal.host
  store := (StateFile.store (statePath installation invocation)).mended
  settings := loadSettings installation invocation

/-- The status of a window in which a command has run: an error that was reported is a
failure. -/
def statusOf (window : Window Machine) : Nat :=
  if window.lastError.isSome then 1 else 0

/-- What a command does in a window. -/
def perform (env : Environment Machine) : Command → Act (Window Machine) Nat
  | .resume => do
      let _ ← Opener.drain env
      return statusOf (← get)
  | .openUri uri => do
      match ← Opener.handleUri env uri with
      | some .notFound => return 1
      | _ => return statusOf (← get)

/-- Run an invocation, up to a fault. -/
def attempt (invocation : Invocation) : Act Machine Nat := do
  let settings ← loadSettings installation invocation
  modify fun machine => { machine with logLevel := some settings.logLevel, documents := [] }
  let disk := (← get).disk
  let roots :=
    if invocation.roots.isEmpty then [Files.pathOf disk.current] else invocation.roots
  let terminal ←
    Act.ofExcept (Terminal.setUp disk roots invocation.index settings.editorCommand)
  let env := environment installation invocation { terminal with reach := installation.reach }
  Act.ofCourse fun machine =>
    let (status, window) := (perform env invocation.command).start { world := machine }
    (status, window.world)

/-- Run an invocation. -/
def runInvocation (invocation : Invocation) (machine : Machine) : Exit × Machine :=
  match (attempt installation invocation).start machine with
  | (.ok status, machine) => (.status status, machine)
  | (.error fault, machine) =>
      let failed (text : String) : Exit × Machine :=
        (.status 1, { machine with errors := machine.errors ++ text ++ "\n" })
      match fault with
      | .request (.badConfig cause) => failed ("Configuration error: " ++ cause.message)
      | .file error => failed ("Error: " ++ error.message)
      | .editor _ _ => failed ("Error: " ++ fault.message)
      | fault => (.fault fault, machine)

/-- The status of a refused command line. -/
def usageStatus : Nat := 2

/-- Run a command line. -/
def run (arguments : List String) (machine : Machine) : Exit × Machine :=
  match read arguments with
  | .ok invocation => runInvocation installation invocation machine
  | .error (.problem command problem) =>
      let line := programFor command ++ ": error: " ++ problem.message ++ "\n"
      (.usage usageStatus, { machine with errors := machine.errors ++ line })
  | .error (.helpWanted command) =>
      let line := "usage: " ++ programFor command ++ "\n"
      (.status 0, { machine with output := machine.output ++ line })

end SymbolJump.CommandLine
