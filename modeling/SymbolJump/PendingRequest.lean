/-
# The pending request

A request whose project is not open here is kept in a store until an instance has the project
open. There is one slot for it, system-wide: saving replaces what is there, and a record that is
no request is thrown away when it is found.
-/
import SymbolJump.Host

namespace SymbolJump

/-- A request that waits for its project. -/
structure PendingRequest where
  symbol : String
  project : String
  hint : Option String := none
deriving DecidableEq

namespace PendingRequest

/-- The stored record of a request. -/
def toRecord (request : PendingRequest) : Json :=
  .object [
    ("symbol", .text request.symbol),
    ("cwd", .text request.project),
    ("kind", .ofText? request.hint)]

/-- A text that is not empty. -/
def filledText? : Json → Option String
  | .text "" => none
  | .text value => some value
  | _ => none

/-- The request in a record; nothing when the record is malformed. An empty hint is none. -/
def ofRecord? (record : Json) : Option PendingRequest := do
  let fields ← record.asObject?
  let symbol ← filledText? (Fields.getOrNull fields "symbol")
  let project ← filledText? (Fields.getOrNull fields "cwd")
  match Fields.getOrNull fields "kind" with
  | .null => some ⟨symbol, project, none⟩
  | .text "" => some ⟨symbol, project, none⟩
  | .text hint => some ⟨symbol, project, some hint⟩
  | _ => none

end PendingRequest

namespace Slot

/-- The key of the slot. -/
def key : String := "symbolOpener.pendingRequest"

variable {σ : Type}

/-- Save a request in place of any earlier one. -/
def save (store : Store σ) (request : PendingRequest) : Act σ Unit :=
  store.put key request.toRecord

/-- Empty the slot. -/
def clear (store : Store σ) : Act σ Unit :=
  store.put key .null

/-- The request in the slot. A malformed record is deleted and counts as none. -/
def peek (host : Host σ) (store : Store σ) : Act σ (Option PendingRequest) := do
  match ← store.get key with
  | .null => return none
  | record =>
      match PendingRequest.ofRecord? record with
      | some request => return some request
      | none =>
          host.warning ("Discarding malformed pending request: " ++ record.shown)
          clear store
          return none

end Slot

end SymbolJump
