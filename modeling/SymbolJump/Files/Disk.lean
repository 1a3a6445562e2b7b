/-
# A disk

A disk is a tree of files with a current folder. Its operations answer as an operating system
does: with the entry, or with what stands in the way and the path that was asked for, in its
tidy form. A path with a null character is refused before anything is looked up. Writing a text
and then moving it over another is how a file is replaced as a whole.
-/
import SymbolJump.Act
import SymbolJump.Files.RealPath
import SymbolJump.Text.Blank

namespace SymbolJump.Files

open Text

/-- A tree of files and the folder that relative paths start from. -/
structure Disk where
  tree : Node
  current : Place

namespace Disk

/-- A failure at a path. -/
def failure (trouble : FileTrouble) (path : String) : FileError :=
  { trouble, path := Path.tidy path }

/-- Whether a path holds a null character. -/
def holdsNull (path : String) : Bool :=
  path.toList.contains '\x00'

/-- The answer of an operation at a path. -/
def answered {α : Type} (path : String) (answer : Except FileError α) : Except Fault α :=
  if holdsNull path then .error (.refusal .nullInPath) else answer.mapError .file

/-- The place that a path leads to, if it leads anywhere. Only a name that is too long is a
failure. -/
def locate? (disk : Disk) (path : String) : Except Fault (Option Place) :=
  if holdsNull path then .ok none
  else match resolve disk.tree disk.current (Path.tidy path) with
    | .ok place => .ok (some place)
    | .error .nameTooLong => .error (.file (failure .nameTooLong path))
    | .error _ => .ok none

/-- Whether a path leads to an entry. -/
def exists? (disk : Disk) (path : String) : Except Fault Bool :=
  (disk.locate? path).map Option.isSome

/-- Whether a path leads to a folder. -/
def isFolder (disk : Disk) (path : String) : Except Fault Bool :=
  (disk.locate? path).map fun place =>
    ((place.bind disk.tree.at?).map Node.isFolder).getD false

/-- The bytes of the file that a path leads to. -/
def read (disk : Disk) (path : String) : Except Fault (List UInt8) :=
  answered path <|
    match resolve disk.tree disk.current (Path.tidy path) with
    | .error trouble => .error (failure trouble path)
    | .ok place =>
        match disk.tree.at? place with
        | some (.file bytes) => .ok bytes
        | some (.folder _) => .error (failure .isFolder path)
        | _ => .error (failure .missing path)

/-- The text of the file that a path leads to, with line endings unified. -/
def readText (disk : Disk) (path : String) : Except Fault String := do
  match Utf8.decode (← disk.read path) with
  | .error malformed => throw (.encoding malformed)
  | .ok text => return String.ofList (unifyLineEndings text.toList)

/-- The text of the file that a path leads to, where ill-formed parts are replaced. -/
def readTextLeniently (disk : Disk) (path : String) : Except Fault String :=
  (disk.read path).map fun bytes =>
    String.ofList (unifyLineEndings (Utf8.decodeLenient bytes).toList)

/-- The disk after bytes were written to the file that a path leads to. -/
def write (disk : Disk) (path : String) (bytes : List UInt8) : Except Fault Disk :=
  answered path <|
    match walk disk.tree disk.current (Path.tidy path) .creation with
    | .trouble trouble => .error (failure trouble path)
    | .link _ _ _ => .error (failure .tooManyLinks path)
    | .absent folder name [] =>
        .ok { disk with tree := disk.tree.put (folder ++ [name]) (.file bytes) }
    | .absent _ _ (_ :: _) => .error (failure .missing path)
    | .found place =>
        match disk.tree.at? place with
        | some (.folder _) => .error (failure .isFolder path)
        | _ => .ok { disk with tree := disk.tree.put place (.file bytes) }

/-- The place of the entry that a path names itself, when its last component is a link too. -/
def entryPlace (disk : Disk) (path : String) : Except FileTrouble (Place × Option Node) :=
  match walk disk.tree disk.current (Path.tidy path) .entry with
  | .trouble trouble => .error trouble
  | .link _ _ _ => .error .tooManyLinks
  | .absent folder name [] => .ok (folder ++ [name], none)
  | .absent _ _ (_ :: _) => .error .missing
  | .found place => .ok (place, disk.tree.at? place)

/-- The disk after the entry at one path took the place of the one at another, which must name
an entry and not the folder around it. -/
def move (disk : Disk) (source target : String) : Except Fault Disk :=
  let failed (trouble : FileTrouble) : FileError :=
    { trouble, path := Path.tidy source, target := some (Path.tidy target) }
  answered (source ++ target) <|
    match disk.entryPlace source, disk.entryPlace target with
    | .error trouble, _ | _, .error trouble => .error (failed trouble)
    | .ok origin, .ok goal =>
        if Path.baseName target = ".." then .error (failed .busy)
        else match origin, goal with
          | (_, none), _ => .error (failed .missing)
          | _, (_, some (.folder _)) => .error (failed .isFolder)
          | (origin, some entry), (place, _) =>
              .ok { disk with tree := (disk.tree.remove origin).put place entry }

/-- The disk after one folder was created, whose parent must be there. -/
def makeFolder (disk : Disk) (path : String) : Except Fault Disk :=
  answered path <|
    match disk.entryPlace path with
    | .error trouble => .error (failure trouble path)
    | .ok (_, some _) => .error (failure .occupied path)
    | .ok (place, none) => .ok { disk with tree := disk.tree.put place (.folder []) }

/-- The disk after a folder was created, or as it is when the folder is there. -/
def haveFolder (disk : Disk) (path : String) : Except Fault Disk :=
  match disk.makeFolder path with
  | .ok disk => .ok disk
  | .error (.file error) => do
      if error.trouble ≠ .missing ∧ (← disk.isFolder path) then return disk
      else throw (.file error)
  | .error fault => .error fault

/-- Change the disk. -/
def change (step : Disk → Except Fault Disk) : Act Disk Unit := do
  set (← Act.ofExcept (step (← get)))

/-- Whether a fault says that something is missing. -/
def isMissing : Fault → Bool
  | .file error => error.trouble = .missing
  | _ => false

/-- Create a folder and those above it as far as they are missing. The number bounds how many
folders above the path are looked at. -/
def makeFoldersUpTo : (above : Nat) → String → Act Disk Unit
  | 0, path => change (·.haveFolder path)
  | above + 1, path =>
      tryCatch (change (·.haveFolder path)) fun fault => do
        if isMissing fault then
          makeFoldersUpTo above (Path.parent path)
          change (·.haveFolder path)
        else throw fault

/-- Create a folder and those above it as far as they are missing. -/
def makeFolders (path : String) : Act Disk Unit :=
  makeFoldersUpTo (Path.components path).length path

/-- The path without links that a path leads to. One that can only be followed in circles is
refused. -/
def realPath (disk : Disk) (path : String) : Except Fault String :=
  if holdsNull path then .error (.refusal .nullInPath)
  else
    let spelled := spelledOut disk.tree disk.current (Path.tidy path)
    match resolve disk.tree disk.current spelled with
    | .error .tooManyLinks => .error (.linkLoop spelled)
    | _ => .ok spelled

end Disk

end SymbolJump.Files
