/-
# A host in a terminal

The terminal host works on the files below some roots and an index file. It shows what it finds
as lines of text, lets the user choose by number, and passes places on to an editor command when
there is one.
-/
import SymbolJump.IndexFile

namespace SymbolJump

open Text

/-- What a terminal host is set up with. The roots are free of links. -/
structure Terminal where
  roots : List String
  indexPath : String
  editorCommand : String
  /-- How deep the values of an index may be nested. -/
  reach : Json.Reach := {}
deriving DecidableEq

namespace Terminal

/-- A terminal host for roots as they are spelled on a disk. -/
def setUp (disk : Files.Disk) (roots : List String) (indexPath editorCommand : String) :
    Except Fault Terminal := do
  let roots ← roots.mapM disk.realPath
  return { roots, indexPath, editorCommand }

/-- The pattern of what is left out, as a configuration gives it. One that is no text fails as
soon as an entry is held against it. -/
def exclusion (disk : Files.Disk) (root : String) (excluded : Value) :
    Except Fault (Option String) := do
  match excluded with
  | .text "" => return none
  | .text pattern => return some pattern
  | excluded =>
      if excluded.isTruthy && (← disk.hasEntries root) then throw (.misfit .wrongType)
      else return none

/-- The paths found under one root for patterns as a configuration gives them. A pattern that is
no text fails as soon as a path is held against it. -/
def findUnder (disk : Files.Disk) (root : String) (wanted excluded : Value)
    (limit : Option Int) : Except Fault (List String) := do
  let excluded ← exclusion disk root excluded
  match wanted with
  | .text pattern => disk.find root pattern excluded limit
  | _ =>
      if (← disk.findBy root (.allBut excluded) (some 1)).isEmpty then return []
      else throw (.misfit .wrongType)

/-- The paths found under several roots. The limit holds for all of them together. -/
def findUnderAll (disk : Files.Disk) (wanted excluded : Value) :
    (roots : List String) → (limit : Option Int) → Except Fault (List String)
  | [], _ => .ok []
  | root :: roots, limit =>
      if (limit.map fun count => decide (count ≤ 0)).getD false then .ok []
      else do
        let found ← findUnder disk root wanted excluded limit
        let more ← findUnderAll disk wanted excluded roots
          (limit.map fun count => count - found.length)
        return found ++ more

/-- The most lines that a search shows. -/
def searchLimit : Nat := 50

/-- A line of a file as a search shows it. -/
def hitText (path : String) (number : Nat) (line : String) : String :=
  path ++ ":" ++ toString number ++ ": " ++ trim line

/-- Print those of some numbered lines of a file that hold a text, until as many were printed as a
search shows. Those printed before count, and the answer is how many there are then. -/
def showLines (text path : String) : (numbered : List (String × Nat)) → (shown : Nat) →
    Act Machine Nat
  | [], shown => return shown
  | (line, number) :: rest, shown =>
      if occursIn text.toList line.toList then do
        Machine.printLine (hitText path number line)
        if searchLimit ≤ shown + 1 then return shown + 1
        else showLines text path rest (shown + 1)
      else showLines text path rest shown

/-- Whether a search passes over a file that cannot be read for this fault. -/
def isPassedOver : Fault → Bool
  | .file _ | .encoding _ => true
  | _ => false

/-- Print the lines of some files that hold a text, until as many were printed as a search shows. -/
def showFiles (text : String) : (paths : List String) → (shown : Nat) → Act Machine Unit
  | [], _ => return
  | path :: rest, shown => do
      match (← get).disk.readText path with
      | .error fault => if isPassedOver fault then showFiles text rest shown else throw fault
      | .ok content =>
          let shown ← showLines text path ((lines content).zipIdx 1) shown
          if searchLimit ≤ shown then return else showFiles text rest shown

/-- The number that a trimmed reply chooses; nothing for a reply that does not look like a
number. A reply may look like one and be none. -/
def chosen (reply : String) : Except Refusal (Option Nat) :=
  let chars := reply.toList
  if chars.isEmpty || !chars.all isDigitLike then .ok none
  else
    let digits := (chars.takeWhile fun c => (digitValue? c).isSome).length
    if numeralLimit < digits then .error (.longNumeral digits)
    else match decimal? chars with
      | some number => .ok (some number)
      | none => .error (.noNumeral 10 reply)

/-- A candidate as the picker lists it. -/
def itemText (number : Nat) (candidate : Candidate) : String :=
  let description :=
    if candidate.container.isTruthy then " (" ++ candidate.container.worded ++ ")" else ""
  "  " ++ toString number ++ ". " ++ candidate.name ++ description ++ "  " ++
    candidate.location.path

/-- The candidate that a reply chooses from a list counted from one. -/
def choose (candidates : List Candidate) (reply : String) : Except Refusal (Option Candidate) :=
  (chosen (trim reply)).map fun number =>
    match number with
    | some (index + 1) => candidates[index]?
    | _ => none

/-- Print the items of a picker. -/
def printItems (candidates : List Candidate) : Act Machine Unit :=
  Machine.print (String.join ((candidates.zipIdx 1).map fun item =>
    itemText item.2 item.1 ++ "\n"))

/-- Let the user choose by number. Anything but the number of an item dismisses the picker. -/
def pick (prompt : String) (candidates : List Candidate) : Act Machine (Option Candidate) := do
  Machine.printLine prompt
  printItems candidates
  Machine.print "> "
  match ← Machine.readLine with
  | none => return none
  | some reply =>
      match choose candidates reply with
      | .ok candidate => return candidate
      | .error refusal => throw (.refusal refusal)

/-- The text of a line or a column that is counted from zero, counted from one. -/
def countText (value : Json) : Except Fault String :=
  match value.addInt? 1 with
  | none => .error (.misfit .wrongType)
  | some count =>
      if count.isShowable then .ok count.worded else .error (.refusal .longNumber)

/-- The text of a place, counted from one. -/
def placeText (location : Location) : Except Fault String := do
  let line ← countText location.line
  let column ← countText location.column
  return location.path ++ ":" ++ line ++ ":" ++ column

/-- The documents with one of them loaded: in its place when it is there, at the end
otherwise. -/
def keepDocument (path text : String) : List (String × String) → List (String × String)
  | [] => [(path, text)]
  | document :: rest =>
      if document.1 = path then (path, text) :: rest else document :: keepDocument path text rest

/-- Load a document into the machine. -/
def load (path : String) : Act Machine Unit := do
  let text ← Machine.ofDisk (·.readTextLeniently path)
  modify fun machine => { machine with documents := keepDocument path text machine.documents }

variable (terminal : Terminal)

/-- Search all roots for files. -/
def findFiles (wanted excluded : Value) (limit : Option Int) : Act Machine (List String) :=
  Machine.ofDisk (findUnderAll · wanted excluded terminal.roots limit)

/-- Open a project with the editor command. -/
def openProject (path : String) (newWindow : Bool) : Act Machine Unit :=
  Machine.runEditor
    [terminal.editorCommand, if newWindow then "--new-window" else "--reuse-window", path]

/-- Print a place, and go there with the editor command if there is one. -/
def reveal (location : Location) : Act Machine Unit := do
  let target ← Act.ofExcept (placeText location)
  Machine.printLine target
  if terminal.editorCommand ≠ "" then
    Machine.runEditor [terminal.editorCommand, "--goto", target]

/-- Print the first lines of the files below the roots that hold a text. -/
def openSearch (text : String) : Act Machine Unit := do
  Machine.printLine ("Searching workspace for \"" ++ text ++ "\"")
  showFiles text (← findFiles terminal (.text "**/*") .null none) 0

/-- The terminal as a host. It does not wait. -/
def host : Host Machine where
  query text := do
    let entries ← IndexFile.query terminal.reach terminal.indexPath (wholes text)
    return some (entries.filterMap IndexEntry.toCandidate?)
  findFiles := findFiles terminal
  load := load
  pick := pick
  openProject := openProject terminal
  showError message := Machine.printError ("error: " ++ message)
  reveal := reveal terminal
  openSearch := openSearch terminal
  wait _ := pure ()
  roots _ := terminal.roots
  documents machine := machine.documents.map Prod.fst
  log := Machine.log

end Terminal

end SymbolJump
