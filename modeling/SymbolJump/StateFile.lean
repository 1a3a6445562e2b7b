/-
# State files

A state file is a store that every instance reads anew for each use, so that what one instance
writes the others see. It is one written value with a version of its layout; a file of another
version, or one that cannot be read, counts as empty. It is replaced as a whole, by writing
beside it and moving the new file over it. Its texts may hold halves of characters; an instance
that uses it as its store has none.
-/
import SymbolJump.Json.Reader
import SymbolJump.Json.Writer
import SymbolJump.Machine

namespace SymbolJump.StateFile

open Files Text

/-- The version of the layout. -/
def version : Json Wide := .int 1

/-- The value that a file of the given values writes. -/
def document (values : Fields Wide) : Json Wide :=
  .object [
    ("meta", .object [("schema_version", version)]),
    ("values", .object values)]

/-- The text of a file of the given values. -/
def render (values : Fields Wide) : String :=
  (document values).indented

/-- What the text of a state file holds. -/
inductive Contents
  | values (values : Fields Wide)
  /-- The text writes no value. -/
  | unreadable
  /-- The layout has another version. -/
  | otherVersion (version : Json Wide)
deriving DecidableEq

/-- What a written value holds as a state file. A value that is no object has the version
zero. -/
def contentsOf (value : Json Wide) : Except Fault Contents :=
  match value with
  | .object fields =>
      match Fields.getOr fields "meta" (.object []) with
      | .object layout =>
          let found := Fields.getOr layout "schema_version" (.int 0)
          if found.asInt? = version.asInt? then
            match Fields.getOr fields "values" (.object []) with
            | .object values => .ok (.values values)
            | _ => .ok (.values [])
          else .ok (.otherVersion found)
      | other => .error (.misfit (.noOperation other.typeName "get"))
  | _ => .ok (.otherVersion (.int 0))

/-- What a state file on a disk holds. A file that is missing holds nothing. -/
def contents (disk : Disk) (path : String) : Except Fault Contents := do
  if ← disk.exists? path then
    match (disk.readText path).toOption.bind Json.read? with
    | some value => contentsOf value
    | none => return .unreadable
  else return .values []

/-- The values of a state file, with a log line when it is passed over. -/
def load (path : String) : Act Machine (Fields Wide) := do
  match ← Machine.ofDisk (contents · path) with
  | .values values => return values
  | .unreadable =>
      modify (Machine.log ⟨.error, "Error loading state from " ++ Path.tidy path⟩)
      return []
  | .otherVersion found =>
      modify (Machine.log ⟨.warning, "Schema version mismatch (" ++ found.worded ++ " != " ++
        version.worded ++ "). Ignoring state."⟩)
      return []

/-- The path of the file that is written before it takes the place of a state file. -/
def besides (path : String) : String :=
  Path.join (Path.parent path) (Path.baseName path ++ ".tmp")

/-- Replace a state file by one of the given values. -/
def save (path : String) (values : Fields Wide) : Act Machine Unit := do
  Machine.onDisk (Disk.makeFolders (Path.parent path))
  if Path.baseName path = "" then throw (.refusal (.namelessPath (Path.tidy path)))
  Machine.onDisk (Disk.change (·.write (besides path) (Utf8.encode (render values))))
  Machine.onDisk (Disk.change (·.move (besides path) path))

/-- Read a value. -/
def get (path : String) (key : Wide) : Act Machine (Json Wide) := do
  return (← load path).getOrNull key

/-- Write a value; null deletes. Nothing is written when there is nothing to delete. -/
def put (path : String) (key : Wide) (value : Json Wide) : Act Machine Unit := do
  let values ← load path
  match value with
  | .null => if values.has key then save path (values.erase key)
  | value => save path (values.set key value)

/-- A state file as a store. -/
def store (path : String) : Store Machine Wide where
  get := get path
  put := put path

end SymbolJump.StateFile
