/-
# Hosts

A host is what a jump asks of its surroundings: the symbol index, the files of the open project,
a picker, and windows to show things in. It is a record of operations over a state of its own,
each of which may change that state and may fault. A store holds values that outlive a run. The
engine is written against these records alone, so it runs the same over a terminal, an editor
or a recording.
-/
import SymbolJump.Act
import SymbolJump.Candidate
import SymbolJump.Log
import SymbolJump.Settings.Basic

namespace SymbolJump

/-- What a jump asks of its surroundings. -/
structure Host (σ : Type) where
  /-- Ask the symbol index for matches. An index may answer with nothing at all. -/
  query : String → Act σ (Option (List Candidate))
  /-- Search the open project for files that match a pattern and not another, at most the given
  number. -/
  findFiles : (wanted excluded : Value) → (limit : Option Int) → Act σ (List String)
  /-- Load a document without showing it. -/
  load : String → Act σ Unit
  /-- Let the user choose a candidate; nothing when the picker is dismissed. -/
  pick : (prompt : String) → List Candidate → Act σ (Option Candidate)
  /-- Open a project, in a new window or in this one. -/
  openProject : (path : String) → (newWindow : Bool) → Act σ Unit
  showError : String → Act σ Unit
  /-- Open a file and move to a place in it. -/
  reveal : Location → Act σ Unit
  /-- Open a search for a text. -/
  openSearch : String → Act σ Unit
  /-- Wait for a number of milliseconds. -/
  wait : Nat → Act σ Unit
  /-- The open project roots, in the user's order. -/
  roots : σ → List String
  /-- The paths of the open documents. -/
  documents : σ → List String
  /-- Take a log line. -/
  log : LogLine → σ → σ

namespace Host

variable {σ : Type} (host : Host σ)

/-- Log a message of low severity. -/
def debug (message : String) : Act σ Unit :=
  modify (host.log ⟨.debug, message⟩)

/-- Log a message of usual severity. -/
def info (message : String) : Act σ Unit :=
  modify (host.log ⟨.info, message⟩)

/-- Log a warning. -/
def warning (message : String) : Act σ Unit :=
  modify (host.log ⟨.warning, message⟩)

/-- Log an error. -/
def error (message : String) : Act σ Unit :=
  modify (host.log ⟨.error, message⟩)

end Host

/-- Values that outlive a run, by key. Null stands for nothing: a key without a value reads as
null, and writing null deletes. -/
structure Store (σ : Type) (τ : Type := String) where
  get : τ → Act σ (Json τ)
  put : τ → Json τ → Act σ Unit

/-- A store of wide texts as a store of texts. Halves of characters are replaced in what is read. -/
def Store.mended {σ : Type} (store : Store σ Text.Wide) : Store σ where
  get key := do return (← store.get key).mended
  put key value := store.put key value.widened

/-- All that an opener works with. Settings are loaded anew for each use, so that a changed
configuration holds from then on. -/
structure Environment (σ : Type) where
  host : Host σ
  store : Store σ
  settings : Act σ Settings

end SymbolJump
