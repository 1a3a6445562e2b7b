/-
# Opening symbols

An opener serves one instance. It takes requests, directly or as URIs, and either resolves them
here and shows the outcome or hands them over to the instance that has the project open. Every
request error is reported to the user once and remembered; other faults pass through.
-/
import SymbolJump.Activation
import SymbolJump.Handoff
import SymbolJump.OpenRequest
import SymbolJump.Resolution

namespace SymbolJump

/-- The message for a query that found nothing. -/
def Query.notFoundMessage (query : Query) : String :=
  let kind :=
    match query.hint with
    | none | some "" => ""
    | some hint => " (kind: " ++ hint ++ ")"
  "Symbol \"" ++ query.name ++ "\"" ++ kind ++ " not found in workspace"

namespace Opener

open Window

variable {σ : Type} (env : Environment σ)

/-- The text of a line number in a log line; nothing for a value that is no number. -/
def lineText? : Json → Option String
  | .float value => value.truncate?.map toString
  | value => value.asInt?.map toString

/-- Show the outcome of a query. -/
def present (query : Query) (settings : Settings) : Outcome → Act σ Unit
  | .found candidate => do
      let location := candidate.location
      match lineText? location.line with
      | some line => env.host.info ("found: " ++ location.path ++ ":" ++ line)
      | none => pure ()
      env.host.reveal location
  | .cancelled => env.host.info "cancelled"
  | .notFound =>
      match settings.notFound with
      | .search => do
          env.host.info ("not found, opening search for " ++ query.name)
          env.host.openSearch query.name
      | .error => do
          env.host.info "not found"
          env.host.showError query.notFoundMessage

/-- How a hint stands in the log line of a query. -/
def hintText : Option String → String
  | none | some "" => ""
  | some hint => ", kind: " ++ hint

/-- Wake the index, resolve a query and show its outcome. -/
def openSymbol (query : Query) (token : Option (σ → Bool)) : Act σ Outcome := do
  let settings ← env.settings
  Activation.activate env.host settings.detectors settings.language
  env.host.info ("resolving symbol: " ++ query.name ++ hintText query.hint)
  let outcome ← Resolution.resolve env.host query settings token
  present env query settings outcome
  return outcome

/-- Report a request error to the user, and remember it. -/
def report (error : RequestError) : Act (Window σ) Unit := do
  modify fun window => { window with lastError := some error }
  inWorld (env.host.error error.message)
  inWorld (env.host.showError error.message)

/-- An act whose request errors are reported, with an answer for that case. -/
def reporting {α : Type} (act : Act (Window σ) α) (otherwise : Act (Window σ) α) :
    Act (Window σ) α :=
  tryCatch act fun fault =>
    match fault with
    | .request error => do
        report env error
        otherwise
    | fault => throw fault

/-- Resolve a request here when its project is open here, and hand it over otherwise. -/
def serve (symbol project : Option String) (hint : Option String) (token : Option (σ → Bool)) :
    Act (Window σ) (Option Outcome) := do
  match symbol, project with
  | none, _ | some "", _ | _, none | _, some "" => throw (.request .missingParameters)
  | some symbol, some project =>
      let settings ← inWorld env.settings
      let roots := env.host.roots (← get).world
      inWorld (env.host.debug ("workspace roots: " ++ Json.shownTexts roots ++
        ", cwd: " ++ project))
      if Path.isOpenAmong project roots then
        return some (← inWorld (openSymbol env ⟨symbol, hint⟩ token))
      else
        let _ ← Handoff.handOff env ⟨symbol, project, hint⟩ settings.notOpen
        return none

/-- Handle a request. There is no outcome when it was handed over or rejected. -/
def handleRequest (symbol project : Option String) (hint : Option String)
    (token : Option (σ → Bool)) : Act (Window σ) (Option Outcome) :=
  reporting env (serve env symbol project hint token) (return none)

/-- Handle a URI. -/
def handleUri (uri : String) : Act (Window σ) (Option Outcome) := do
  inWorld (env.host.info ("URI received: " ++ uri))
  match OpenRequest.ofUri uri with
  | .error error => throw (.refusal (.authority error))
  | .ok request =>
      inWorld (env.host.debug ("parsed symbol: " ++ (Json.ofText? request.symbol).worded ++
        ", cwd: " ++ (Json.ofText? request.project).worded))
      handleRequest env request.symbol request.project request.kind none

/-- Resume a pending request. -/
def resume (request : PendingRequest) : Act (Window σ) Unit := do
  let _ ← inWorld (openSymbol env ⟨request.symbol, request.hint⟩ none)

/-- Look at the pending request, when the instance starts or regains focus. -/
def drain : Act (Window σ) Standing :=
  reporting env (Handoff.processPending env (resume env)) (return (← get).standing)

end Opener

end SymbolJump
