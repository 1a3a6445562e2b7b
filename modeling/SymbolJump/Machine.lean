/-
# A machine

What a run in a terminal works on: a disk, the lines that will be typed, what is printed, an
editor that may fail, and a log. Commands of the editor are noted as they are run; how each ends
is laid down beforehand, and it succeeds when nothing is laid down.
-/
import SymbolJump.Files.Search
import SymbolJump.Host

namespace SymbolJump

/-- How a command of the editor ends. -/
inductive EditorExit
  | status (code : Nat)
  /-- There is no such program. -/
  | missing
deriving DecidableEq, Repr

/-- The state of a machine. -/
structure Machine where
  disk : Files.Disk
  /-- The documents loaded so far, with their texts. -/
  documents : List (String × String) := []
  /-- The lines still to be typed, without their ends. -/
  input : List String := []
  /-- What had been printed when a line was asked for and none was left. -/
  asked : Option String := none
  output : String := ""
  errors : String := ""
  editor : List EditorExit := []
  runs : List (List String) := []
  lines : List LogLine := []
  /-- How much of the log is printed, if anything. -/
  logLevel : Option LogLevel := none

namespace Machine

/-- Print a text. -/
def print (text : String) : Act Machine Unit :=
  modify fun machine => { machine with output := machine.output ++ text }

/-- Print a line. -/
def printLine (text : String) : Act Machine Unit :=
  print (text ++ "\n")

/-- Print a line where errors go. -/
def printError (text : String) : Act Machine Unit :=
  modify fun machine => { machine with errors := machine.errors ++ text ++ "\n" }

/-- Take a log line, and print it where errors go when the level lets it through. -/
def log (line : LogLine) (machine : Machine) : Machine :=
  let printed := (machine.logLevel.map fun level => level.keeps line.severity).getD false
  { machine with
    lines := machine.lines ++ [line]
    errors := if printed then machine.errors ++ line.text ++ "\n" else machine.errors }

/-- The next line typed; nothing at the end of the input. -/
def readLine : Act Machine (Option String) := do
  let machine ← get
  match machine.input with
  | [] =>
      set { machine with asked := machine.asked <|> some machine.output }
      return none
  | line :: rest =>
      set { machine with input := rest }
      return some line

/-- Run a command of the editor. -/
def runEditor (command : List String) : Act Machine Unit := do
  modify (log ⟨.debug, "Running: " ++ Text.joinWith " " command⟩)
  modify fun machine => { machine with runs := machine.runs ++ [command] }
  match (← get).editor with
  | [] => return
  | exit :: rest =>
      modify fun machine => { machine with editor := rest }
      match exit with
      | .status 0 => return
      | .status code => throw (.editor command code)
      | .missing => throw (.file { trouble := .missing, path := command.headD "" })

/-- An answer that is read off the disk. -/
def ofDisk {α : Type} (answer : Files.Disk → Except Fault α) : Act Machine α := do
  Act.ofExcept (answer (← get).disk)

/-- An act on the disk. -/
def onDisk {α : Type} (act : Act Files.Disk α) : Act Machine α :=
  act.onPart Machine.disk fun disk machine => { machine with disk }

end Machine

end SymbolJump
