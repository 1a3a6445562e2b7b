/-
# Index files

An index file is a snapshot of the symbols of a workspace: a written list of entries, read anew
for each query. A file that is missing, cannot be read or holds no list counts as an empty
index, and an entry of the wrong shape is passed over. A file whose values are nested too deeply is
no such case: it fails.
-/
import SymbolJump.IndexEntry
import SymbolJump.Json.Depth
import SymbolJump.Machine
import SymbolJump.Text.Subsequence

namespace SymbolJump.IndexFile

open Files Text

/-- What an index file holds, before its entries are looked at. -/
inductive Contents
  | entries (values : List (Json Wide))
  | unreadable
  | notList
deriving DecidableEq

/-- What the text of an index file holds. -/
def contentsOf (limit : Option Nat) (text : String) : Except Fault Contents :=
  match Json.tooDeep? limit text with
  | some cause => .error (.nesting cause)
  | none =>
      match Json.read? text with
      | none => .ok .unreadable
      | some (.list values) => .ok (.entries values)
      | some _ => .ok .notList

/-- What the index file at a path holds. -/
def contents (limit : Option Nat) (disk : Disk) (path : String) : Except Fault Contents := do
  if ← disk.exists? path then
    match disk.readText path with
    | .error _ => return .unreadable
    | .ok text => contentsOf limit text
  else return .entries []

/-- The log line for a value that is no entry. -/
def skippedLine (value : Json Wide) : LogLine :=
  ⟨.debug, "skipping malformed index entry: " ++ value.shown⟩

/-- Pass over a value that is no entry. Where its log line is printed, the value must not be too
high to be shown. -/
def skip (limit : Option Nat) (value : Json Wide) : Act Machine Unit := do
  if (← get).logLevel = some .debug && value.isTooHigh limit then throw (.nesting .shown)
  modify (Machine.log (skippedLine value))

/-- The entries in a list of values. -/
def entriesOf (limit : Option Nat) : List (Json Wide) → Act Machine (List IndexEntry)
  | [] => return []
  | value :: rest => do
      match IndexEntry.ofJson value with
      | .ok entry => return entry :: (← entriesOf limit rest)
      | .error _ =>
          skip limit value
          entriesOf limit rest

/-- Load the entries of the index file at a path. -/
def load (reach : Json.Reach) (path : String) : Act Machine (List IndexEntry) := do
  match ← Machine.ofDisk (contents reach.read · path) with
  | .entries values => entriesOf reach.shown values
  | .unreadable =>
      modify (Machine.log ⟨.error, "Error loading symbol index " ++ Path.tidy path⟩)
      return []
  | .notList =>
      modify (Machine.log
        ⟨.warning, "Symbol index " ++ Path.tidy path ++ " is not a list, ignoring it"⟩)
      return []

/-- The part of a query that is matched with names: a hash sign in front asks for the whole
workspace, which a snapshot is anyway. -/
def needle : (query : List Glyph) → List Glyph
  | .whole '#' :: rest => rest
  | query => query

/-- The entries that a text matches roughly. A name that is no text cannot be matched. -/
def matching (needle : List Glyph) : List IndexEntry → Except Misfit (List IndexEntry)
  | [] => .ok []
  | entry :: rest =>
      match entry.name.asText? with
      | none => .error (.noOperation entry.name.typeName "lower")
      | some name => do
          let more ← matching needle rest
          return if occursRoughly needle (glyphs name) then entry :: more else more

/-- The entries of the index file at a path for a query. -/
def query (reach : Json.Reach) (path : String) (text : List Glyph) :
    Act Machine (List IndexEntry) := do
  match matching (needle text) (← load reach path) with
  | .ok entries => return entries
  | .error misfit => throw (.misfit misfit)

end SymbolJump.IndexFile
