/-
# A register of one cell

The slot for the pending request behaves as one cell. A move leaves the cell as it is, writes a
record into it, throws a malformed record away, or takes a request out to resume it. What is in
the cell was put there by the latest move that did anything at all, so a request that is taken
out belongs to a write of its own: no write serves two of them.
-/
import SymbolJump.PendingRequest

namespace SymbolJump.Register

/-- What one step does with the cell. -/
inductive Move
  | keep
  | write (record : Json)
  /-- A record that is no request is deleted. -/
  | discard
  /-- A request is deleted, and then resumed. -/
  | resume (request : PendingRequest)
deriving DecidableEq

namespace Move

/-- The content of the cell after a move; null when there is none. -/
def after : Move → Json → Json
  | keep, held => held
  | write record, _ => record
  | discard, _ | resume _, _ => .null

/-- The writes to the store that a move consists of. -/
def writes : Move → List Json
  | keep => []
  | write record => [record]
  | discard | resume _ => [.null]

end Move

/-- The content of the cell after moves. -/
def content (start : Json) (moves : List Move) : Json :=
  moves.foldl (fun held move => move.after held) start

end SymbolJump.Register
