/-
# Handing a request over

Several instances of the program share one store. An instance that does not have the project of
a request open saves the request and asks for the project to be opened; every instance looks at
the slot when it starts and whenever it regains focus, and takes the request when the project is
open there. The slot is emptied before the request is resumed, so that no request is resumed
twice.
-/
import SymbolJump.Path.Lexical
import SymbolJump.PendingRequest

namespace SymbolJump

/-- What an instance last did with the pending request. -/
inductive Standing
  | idle
  | saved
  | consumed
  | skipped
deriving DecidableEq, Repr

/-- The word for a standing. -/
def Standing.word : Standing → String
  | idle => "idle"
  | saved => "pending-saved"
  | consumed => "pending-consumed"
  | skipped => "pending-skipped"

/-- One running instance: its surroundings, its standing, and the last error that it
reported. -/
structure Window (σ : Type) where
  world : σ
  standing : Standing := .idle
  lastError : Option RequestError := none

namespace Window

variable {σ α : Type}

/-- An act on the surroundings of a window. -/
def inWorld (act : Act σ α) : Act (Window σ) α :=
  act.onPart Window.world fun world window => { window with world }

/-- Take a standing. -/
def take (standing : Standing) : Act (Window σ) Unit :=
  modify fun window => { window with standing }

end Window

namespace Handoff

open Window

variable {σ : Type} (env : Environment σ)

/-- How a truth value stands in a log line. -/
def shownBool (value : Bool) : String :=
  shownTruth value

/-- Save a request and ask for its project to be opened, as the policy says. Under a policy that
forbids it nothing is saved. -/
def handOff (request : PendingRequest) (policy : NotOpenPolicy) :
    Act (Window σ) Standing := do
  if policy = .error then throw (.request (.projectNotOpen request.project))
  inWorld (Slot.save env.store request)
  take .saved
  let newWindow := policy == .newWindow
  inWorld (env.host.info ("workspace " ++ request.project ++
    " not open, saved pending request for " ++ request.symbol ++
    " (new window: " ++ shownBool newWindow ++ ")"))
  inWorld (env.host.openProject request.project newWindow)
  return (← get).standing

/-- Take the pending request when its project is open here, and resume it. -/
def processPending (resume : PendingRequest → Act (Window σ) Unit) :
    Act (Window σ) Standing := do
  match ← inWorld (Slot.peek env.host env.store) with
  | none => return (← get).standing
  | some request =>
      let roots := env.host.roots (← get).world
      if Path.isOpenAmong request.project roots then
        inWorld (Slot.clear env.store)
        take .consumed
        inWorld (env.host.info ("processing pending request: " ++ request.symbol))
        resume request
        return (← get).standing
      else
        inWorld (env.host.debug ("pending request for " ++ request.project ++
          " does not match open roots " ++ Json.shownTexts roots))
        take .skipped
        return (← get).standing

end Handoff

end SymbolJump
