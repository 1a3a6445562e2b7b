/-
# The program

The outermost layer: it reads the files that a run can see, makes the run on them, writes the
state file back, and prints. A run is a function of the files and of the lines typed. When it
asks for a line that was not typed yet, it is shown as far as it came, the line is read, and the
run is made again with it. Commands of the editor come last, each on a line of its own, for a
shell to run.
-/
import SymbolJump.CommandLine.Run
import SymbolJump.Yaml.Parser

namespace SymbolJump.Main

open Files CommandLine

/-- How many values may be inside each other that are read or shown. -/
def heightLimit : Nat := 960

/-- The folder in which a user's programs keep their state. -/
def stateHome : IO String := do
  let named := (← IO.getEnv "XDG_STATE_HOME").getD ""
  if Text.trim named ≠ "" then return named
  return Path.join ((← IO.getEnv "HOME").getD "/") ".local/state"

/-- What the program finds laid down. -/
def findInstallation : IO Installation := do
  return {
    parse := Yaml.parser
    defaultState := Path.join (← stateHome) "symbol-opener/state.json"
    reach := ⟨some heightLimit, some heightLimit⟩ }

/-- How deep the folders below a root are read. -/
def depthLimit : Nat := 64

/-- The entry at a path, with what is below it up to a depth; nothing when it cannot be read. An
entry that lies elsewhere once links are followed is a link. -/
def readEntry : (depth : Nat) → (path : String) → IO (Option Node)
  | 0, _ => return none
  | depth + 1, path => do
      let .ok real ← (IO.FS.realPath path).toBaseIO | return none
      if real.toString ≠ path then return some (.link real.toString)
      match ← real.readDir.toBaseIO with
      | .ok entries =>
          let read ← entries.toList.mapM fun entry => do
            let below ← readEntry depth (Path.join path entry.fileName)
            return below.map fun node => (entry.fileName, node)
          return some (.folder (read.filterMap id))
      | .error _ =>
          let .ok bytes ← (IO.FS.readBinFile path).toBaseIO | return none
          return some (.file bytes.toList)

/-- The tree with the entries on the way along components from a place, and the place without
links that the way leads to. -/
def readWay : (tree : Node) → Place → List String → IO (Node × Place)
  | tree, place, [] => return (tree, place)
  | tree, place, name :: rest => do
      if name = ".." then readWay tree place.dropLast rest
      else
        let next := place ++ [name]
        let entry ← readEntry 1 (pathOf next)
        let tree := tree.alter (fun known => known <|> entry) next
        match entry with
        | some (.link target) => readWay tree (Path.components target) rest
        | _ => readWay tree next rest

/-- The disk with the entries on the way along a path and, below its end, down to a depth. -/
def readPath (depth : Nat) (disk : Disk) (path : String) : IO Disk := do
  let start := if Path.isAbsolute path then [] else disk.current
  let (tree, place) ← readWay disk.tree start (Path.components path)
  match ← readEntry depth (pathOf place) with
  | some (.folder entries) => return { disk with tree := tree.put place (.folder entries) }
  | _ => return { disk with tree }

/-- The part of the file system that an invocation can see: its roots with all below them, and
the files that it names. -/
def readDisk (installation : Installation) (invocation : Invocation) : IO Disk := do
  let current := (← IO.currentDir).toString
  let disk : Disk := { tree := .folder [], current := Path.components current }
  let roots := if invocation.roots.isEmpty then [current] else invocation.roots
  let files := [invocation.index, statePath installation invocation] ++ invocation.config.toList
  let disk ← roots.foldlM (readPath depthLimit) disk
  files.foldlM (readPath 0) disk

/-- Write a file that a run changed: beside it first, and then over it. -/
def writeChanged (before after : Disk) (path : String) : IO Unit := do
  let .ok bytes := after.read path | return
  if (before.read path).toOption ≠ some bytes then
    IO.FS.createDirAll (Path.parent path)
    IO.FS.writeBinFile (StateFile.besides path) ⟨bytes.toArray⟩
    IO.FS.rename (StateFile.besides path) path

/-- Print what comes in a text after the characters that were shown already. -/
def printAfter (shown : Nat) (text : String) : IO Unit := do
  IO.print (String.ofList (text.toList.drop shown))
  (← IO.getStdout).flush

/-- The most lines that a run reads. -/
def lineLimit : Nat := 1000

/-- Make a run, and again with one more line typed as long as it asks for one; then print what
was not shown yet. -/
def runTyped (installation : Installation) (arguments : List String) (disk : Disk) :
    (more : Nat) → (typed : List String) → (shown : Nat) → IO (Exit × Machine)
  | more, typed, shown => do
      let (exit, machine) := run installation arguments { disk, input := typed }
      match more, machine.asked with
      | more + 1, some sofar =>
          printAfter shown sofar
          let line ← (← IO.getStdin).getLine
          if line = "" then
            printAfter sofar.length machine.output
            return (exit, machine)
          else
            runTyped installation arguments disk more
              (typed ++ [(line.dropSuffix "\n").toString]) sofar.length
      | _, _ =>
          printAfter shown machine.output
          return (exit, machine)

/-- The status that a run ends with, after its fault was printed if it has one. -/
def report : Exit → IO UInt32
  | .status code | .usage code => return code.toUInt32
  | .fault fault => do
      IO.eprintln fault.message
      return 1

/-- Run the program: read what it can see, make the run, and write, print and report what came
of it. -/
def start (arguments : List String) : IO UInt32 := do
  let installation ← findInstallation
  let invocation := (read arguments).toOption
  let disk ←
    match invocation with
    | some invocation => readDisk installation invocation
    | none => pure { tree := .folder [], current := [] }
  let (exit, machine) ← runTyped installation arguments disk lineLimit [] 0
  IO.eprint machine.errors
  if let some invocation := invocation then
    writeChanged disk machine.disk (statePath installation invocation)
  for command in machine.runs do
    IO.println (Text.joinWith " " command)
  report exit

end SymbolJump.Main

/-- Run the program on its command-line arguments. -/
def main (arguments : List String) : IO UInt32 :=
  SymbolJump.Main.start arguments
