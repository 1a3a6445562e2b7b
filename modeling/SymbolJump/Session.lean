/-
# Sessions

A session has several openers, each with a host of its own, on one store. Events reach one
opener at a time: requests and URIs, startup and focus. Between them the configuration may
change, a record may be put into the store from outside, and a host may change by itself.
-/
import SymbolJump.Opener
import SymbolJump.Recording

namespace SymbolJump

/-- One opener of a session. -/
structure Seat (η : Type) where
  host : η
  standing : Standing := .idle
  lastError : Option RequestError := none

/-- Several openers on one store, under the settings in force. -/
structure Session (η : Type) where
  seats : List (Seat η)
  values : Fields := []
  settings : Except Fault Settings

/-- What can happen to one opener of a session. -/
inductive Event (η : Type)
  | request (symbol project hint : Option String) (token : Option (η → Bool))
  | uri (text : String)
  | startup
  | focus
  /-- A record is put into the slot from outside. -/
  | deposit (record : Json)
  /-- Other settings are in force from now on. -/
  | configure (settings : Except Fault Settings)
  /-- The host changes by itself. -/
  | revise (change : η → η)

/-- What an event is answered with. -/
inductive Answer
  | outcome (outcome : Option Outcome)
  | standing (standing : Standing)
  | done
deriving DecidableEq

/-- What happened in one event. -/
structure Report where
  answer : Except Fault Answer
  calls : List Call := []
  lines : List LogLine := []

namespace Session

variable {η : Type} (host : Host η)

/-- What an event makes an opener do. -/
def respond : Event η → Act (Window (Bench η)) Answer
  | .request symbol project hint token => do
      let token := token.map fun cancelled (bench : Bench η) => cancelled bench.host
      return .outcome
        (← Opener.handleRequest (Bench.environment host) symbol project hint token)
  | .uri text => do return .outcome (← Opener.handleUri (Bench.environment host) text)
  | .startup => do return .standing (← Opener.drain (Bench.environment host))
  | .focus => do return .standing (← Opener.drain (Bench.environment host))
  | .deposit record => do
      Window.inWorld (Bench.store.put Slot.key record)
      return .done
  | .configure settings => do
      modify fun window => { window with world := { window.world with settings } }
      return .done
  | .revise change => do
      modify fun window =>
        { window with world := { window.world with host := change window.world.host } }
      return .done

/-- The window of a seat, with nothing recorded yet. -/
def windowOf (session : Session η) (seat : Seat η) : Window (Bench η) :=
  { world := { host := seat.host, values := session.values, settings := session.settings }
    standing := seat.standing
    lastError := seat.lastError }

/-- The seat that a window leaves behind. -/
def seatOf (window : Window (Bench η)) : Seat η :=
  { host := window.world.host, standing := window.standing, lastError := window.lastError }

/-- One event at one opener. There is nothing to do at a seat that the session does not have. -/
def step (session : Session η) (number : Nat) (event : Event η) : Report × Session η :=
  match session.seats[number]? with
  | none => ({ answer := .ok .done }, session)
  | some seat =>
      let (answer, window) := (respond host event).start (session.windowOf seat)
      let world := window.world
      ({ answer, calls := world.calls, lines := world.lines },
       { seats := session.seats.set number (seatOf window)
         values := world.values
         settings := world.settings })

/-- A session after events, each at the opener with the given number, and what happened in
them. -/
def run (session : Session η) : List (Nat × Event η) → List Report × Session η
  | [] => ([], session)
  | (number, event) :: rest =>
      let (report, next) := step host session number event
      let (reports, last) := run next rest
      (report :: reports, last)

end Session

end SymbolJump
