/-
# What an opener does to its window

The courses of the acts of an opener on a bench, one equation for each way an act can go. The
log lines that a run leaves are on no one's mind here, so they are only said to exist.
-/
import SymbolJump.Proofs.Benches

namespace SymbolJump

open Act

variable {η α : Type}

namespace Window

@[simp]
theorem start_inWorld {σ : Type} (act : Act σ α) (window : Window σ) :
    (inWorld act).start window =
      ((act.start window.world).1, { window with world := (act.start window.world).2 }) := rfl

theorem start_inWorld_of_course {σ : Type} {act : Act σ α} {window : Window σ}
    {answer : Except Fault α} {world : σ} (course : act.start window.world = (answer, world)) :
    (inWorld act).start window = (answer, { window with world }) := by
  rw [start_inWorld, course]

@[simp]
theorem start_take {σ : Type} (standing : Standing) (window : Window σ) :
    (take standing).start window = (.ok (), { window with standing }) := rfl

end Window

namespace Bench

@[simp]
theorem environment_host (host : Host η) : (environment host).host = hostOf host := rfl

@[simp]
theorem environment_store (host : Host η) : (environment host).store = store := rfl

@[simp]
theorem start_debug (host : Host η) (message : String) (bench : Bench η) :
    ((hostOf host).debug message).start bench =
      (.ok (), { bench with lines := bench.lines ++ [⟨.debug, message⟩] }) := rfl

@[simp]
theorem start_info (host : Host η) (message : String) (bench : Bench η) :
    ((hostOf host).info message).start bench =
      (.ok (), { bench with lines := bench.lines ++ [⟨.info, message⟩] }) := rfl

@[simp]
theorem start_openProject (host : Host η) (path : String) (newWindow : Bool) (bench : Bench η) :
    ((hostOf host).openProject path newWindow).start bench =
      (((host.openProject path newWindow).start bench.host).1,
       { bench with
         host := ((host.openProject path newWindow).start bench.host).2
         calls := bench.calls ++ [.openProject path newWindow] }) := rfl

end Bench

namespace Opener

open Bench

/-- A request error is remembered before the user is told of it. -/
theorem start_report (host : Host η) (error : RequestError) (window : Window (Bench η)) :
    let shown := (host.showError error.message).start window.world.host
    ∃ lines, (report (environment host) error).start window =
      (shown.1,
       { window with
         world := { window.world with
           host := shown.2
           calls := window.world.calls ++ [.showError error.message]
           lines }
         lastError := some error }) :=
  ⟨window.world.lines ++ [⟨.error, error.message⟩], rfl⟩

/-- What comes of the answer that an act under a report ends with. -/
structure Aftermath (η : Type) where
  host : η
  calls : List Call := []
  /-- The fault that no one catches. -/
  escaped : Option Fault := none
  /-- The error that is remembered. -/
  reported : Option RequestError := none

/-- A request error is shown and remembered, any other fault escapes, and an answer needs
nothing more. A fault of the showing itself escapes too. -/
def aftermath (host : Host η) (state : η) : Except Fault α → Aftermath η
  | .ok _ => { host := state }
  | .error (.request error) =>
      match (host.showError error.message).start state with
      | (.ok _, state) =>
          { host := state, calls := [.showError error.message], reported := some error }
      | (.error fault, state) =>
          { host := state, calls := [.showError error.message], escaped := some fault
            reported := some error }
  | .error fault => { host := state, escaped := some fault }

theorem aftermath_calls_of_request (host : Host η) (state : η) (error : RequestError) :
    (aftermath host state (.error (.request error) : Except Fault α)).calls =
      [.showError error.message] := by
  unfold aftermath
  dsimp only
  split
  · rfl
  · rfl

/-- The window after an aftermath, with its log. -/
def Aftermath.leave (rest : Aftermath η) (lines : List LogLine) (window : Window (Bench η)) :
    Window (Bench η) :=
  { window with
    world := { window.world with
      host := rest.host
      calls := window.world.calls ++ rest.calls
      lines }
    lastError := rest.reported.or window.lastError }

/-- The answer after an aftermath: what the act answered, or what is answered in its place. -/
def Aftermath.answer (rest : Aftermath η) (answer : Except Fault α) (otherwise : α) :
    Except Fault α :=
  match rest.escaped, answer with
  | some fault, _ => .error fault
  | none, .ok answer => .ok answer
  | none, .error _ => .ok otherwise

/-- An act under a report goes as it would by itself, and then has its aftermath. -/
theorem start_reporting (host : Host η) {act otherwise : Act (Window (Bench η)) α}
    {window after : Window (Bench η)} {answer : Except Fault α} {value : Window (Bench η) → α}
    (course : act.start window = (answer, after))
    (quiet : ∀ window, otherwise.start window = (.ok (value window), window)) :
    let rest := aftermath host after.world.host answer
    ∃ lines, (reporting (environment host) act otherwise).start window =
      (rest.answer answer (value (rest.leave lines after)), rest.leave lines after) := by
  dsimp only
  unfold reporting
  rw [start_tryCatch, course]
  rcases answer with fault | answer
  · cases fault with
    | request error =>
        obtain ⟨lines, reported⟩ := start_report host error after
        refine ⟨lines, ?_⟩
        dsimp only
        rw [start_bind, reported]
        dsimp only [aftermath]
        rcases (host.showError error.message).start after.world.host with ⟨fault | shown, state⟩
        · rfl
        · exact quiet _
    | _ => exact ⟨after.world.lines, by simp [aftermath, Aftermath.leave, Aftermath.answer]⟩
  · exact ⟨after.world.lines, by simp [aftermath, Aftermath.leave, Aftermath.answer]⟩

end Opener

namespace Handoff

open Bench

/-- A request that is handed over is saved before its project is opened, and stays saved
whatever comes of that. -/
theorem start_handOff (host : Host η) (request : PendingRequest) {policy : NotOpenPolicy}
    (allowed : policy ≠ .error) (window : Window (Bench η)) :
    let newWindow := policy == .newWindow
    let opened := (host.openProject request.project newWindow).start window.world.host
    ∃ lines, (handOff (environment host) request policy).start window =
      (opened.1.map fun _ => Standing.saved,
       { window with
         world := { window.world with
           host := opened.2
           calls := window.world.calls ++
             [.put Slot.key request.toRecord, .openProject request.project newWindow]
           lines
           values := window.world.values.write Slot.key request.toRecord }
         standing := .saved }) := by
  dsimp only
  unfold handOff
  rw [if_neg allowed]
  simp only [environment, Slot.save, start_bind, Window.start_inWorld, Window.start_take,
    start_put, start_info, start_openProject, start_pure, start_get]
  rcases (host.openProject request.project (policy == .newWindow)).start window.world.host
    with ⟨fault | done, after⟩
  · exact ⟨_, by rw [List.append_assoc]; rfl⟩
  · exact ⟨_, by rw [List.append_assoc]; rfl⟩

end Handoff

namespace Slot

open Bench

variable (host : Host η) {bench : Bench η}

theorem start_peek_of_null (empty : bench.values.getOrNull key = .null) :
    (peek (hostOf host) store).start bench = (.ok none, bench) := by
  unfold peek
  rw [start_bind_of_ok (start_store_get key bench), empty, start_pure]

theorem start_peek_of_request {request : PendingRequest}
    (found : PendingRequest.ofRecord? (bench.values.getOrNull key) = some request) :
    (peek (hostOf host) store).start bench = (.ok (some request), bench) := by
  unfold peek
  rw [start_bind_of_ok (start_store_get key bench)]
  split
  · next empty =>
      rw [empty] at found
      nomatch found
  · rw [found, start_pure]

/-- A record that is no request is deleted, and nothing comes of it. -/
theorem start_peek_of_malformed (filled : bench.values.getOrNull key ≠ .null)
    (malformed : PendingRequest.ofRecord? (bench.values.getOrNull key) = none) :
    ∃ lines, (peek (hostOf host) store).start bench =
      (.ok none, { bench with
        calls := bench.calls ++ [.put key .null]
        lines
        values := bench.values.write key .null }) := by
  unfold peek
  rw [start_bind_of_ok (start_store_get key bench)]
  split
  · next empty => exact absurd empty filled
  · rw [malformed]
    exact ⟨_, rfl⟩

end Slot

namespace Handoff

open Bench

variable (host : Host η) (resume : PendingRequest → Act (Window (Bench η)) Unit)
  {window : Window (Bench η)}

theorem start_processPending_of_null
    (empty : window.world.values.getOrNull Slot.key = .null) :
    (processPending (environment host) resume).start window = (.ok window.standing, window) := by
  unfold processPending
  rw [environment_host, environment_store, start_bind,
    Window.start_inWorld_of_course (Slot.start_peek_of_null host empty)]
  rfl

theorem start_processPending_of_malformed
    (filled : window.world.values.getOrNull Slot.key ≠ .null)
    (malformed : PendingRequest.ofRecord? (window.world.values.getOrNull Slot.key) = none) :
    ∃ lines, (processPending (environment host) resume).start window =
      (.ok window.standing, { window with
        world := { window.world with
          calls := window.world.calls ++ [.put Slot.key .null]
          lines
          values := window.world.values.write Slot.key .null } }) := by
  obtain ⟨lines, course⟩ := Slot.start_peek_of_malformed host filled malformed
  unfold processPending
  rw [environment_host, environment_store, start_bind, Window.start_inWorld_of_course course]
  exact ⟨lines, rfl⟩

/-- A request for a project that is not open here stays where it is. -/
theorem start_processPending_of_elsewhere {request : PendingRequest}
    (found : PendingRequest.ofRecord? (window.world.values.getOrNull Slot.key) = some request)
    (elsewhere : ¬ Path.isOpenAmong request.project (host.roots window.world.host)) :
    ∃ lines, (processPending (environment host) resume).start window =
      (.ok .skipped,
        { window with world := { window.world with lines }, standing := .skipped }) := by
  unfold processPending
  rw [environment_host, environment_store, start_bind,
    Window.start_inWorld_of_course (Slot.start_peek_of_request host found)]
  dsimp only
  rw [start_bind_of_ok (start_get _)]
  split
  · next opened => exact absurd opened elsewhere
  · exact ⟨_, rfl⟩

/-- A request for a project that is open here is deleted, and then resumed. -/
theorem start_processPending_of_here {request : PendingRequest}
    (found : PendingRequest.ofRecord? (window.world.values.getOrNull Slot.key) = some request)
    (here : Path.isOpenAmong request.project (host.roots window.world.host)) :
    ∃ lines, (processPending (environment host) resume).start window =
      (do resume request; return (← get).standing : Act (Window (Bench η)) Standing).start
        { window with
          world := { window.world with
            calls := window.world.calls ++ [.put Slot.key .null]
            lines
            values := window.world.values.write Slot.key .null }
          standing := .consumed } := by
  unfold processPending
  rw [environment_host, environment_store, start_bind,
    Window.start_inWorld_of_course (Slot.start_peek_of_request host found)]
  dsimp only
  rw [start_bind_of_ok (start_get _)]
  split
  · exact ⟨_, rfl⟩
  · next closed => exact absurd here closed

end Handoff

namespace Opener

open Bench

variable (host : Host η) (hint : Option String) (token : Option (Bench η → Bool))
  {window : Window (Bench η)} {symbol project : String}

/-- A part of a request that is there and not empty. -/
def IsGiven (part : Option String) : Prop :=
  ∃ text, part = some text ∧ text ≠ ""

theorem start_serve_of_missing {symbol project : Option String}
    (missing : ¬ (IsGiven symbol ∧ IsGiven project)) :
    (serve (environment host) symbol project hint token).start window =
      (.error (.request .missingParameters), window) := by
  unfold serve
  split
  iterate 4 rfl
  · next symbol project noSymbol noProject =>
      exact absurd ⟨⟨symbol, rfl, noSymbol⟩, ⟨project, rfl, noProject⟩⟩ missing

/-- A request with all its parts is served under the settings in force: here when its project is
open here, and elsewhere otherwise. -/
theorem serve_of_given (env : Environment (Bench η)) (givenSymbol : symbol ≠ "")
    (givenProject : project ≠ "") :
    serve env (some symbol) (some project) hint token = do
      let settings ← Window.inWorld env.settings
      let roots := env.host.roots (← get).world
      Window.inWorld (env.host.debug ("workspace roots: " ++ Json.shownTexts roots ++
        ", cwd: " ++ project))
      if Path.isOpenAmong project roots then
        return some (← Window.inWorld (openSymbol env ⟨symbol, hint⟩ token))
      else
        let _ ← Handoff.handOff env ⟨symbol, project, hint⟩ settings.notOpen
        return none := by
  rw [serve]
  · exact givenSymbol
  · exact givenProject

theorem start_serve_of_refused {fault : Fault} (givenSymbol : symbol ≠ "")
    (givenProject : project ≠ "") (refused : window.world.settings = .error fault) :
    (serve (environment host) (some symbol) (some project) hint token).start window =
      (.error fault, window) := by
  have loaded : (Window.inWorld (environment host).settings).start window =
      (.error fault, window) := by
    show (window.world.settings, window) = _
    rw [refused]
  rw [serve_of_given hint token _ givenSymbol givenProject, start_bind_of_error loaded]

/-- Under settings that hold, a request goes on here or elsewhere, as its project is open. -/
theorem start_serve_of_inForce {settings : Settings} (givenSymbol : symbol ≠ "")
    (givenProject : project ≠ "") (inForce : window.world.settings = .ok settings) :
    ∃ lines, (serve (environment host) (some symbol) (some project) hint token).start window =
      (if Path.isOpenAmong project (host.roots window.world.host) then
        return some (← Window.inWorld (openSymbol (environment host) ⟨symbol, hint⟩ token))
      else do
        let _ ← Handoff.handOff (environment host) ⟨symbol, project, hint⟩ settings.notOpen
        return none : Act (Window (Bench η)) (Option Outcome)).start
        { window with world := { window.world with lines } } := by
  have loaded : (Window.inWorld (environment host).settings).start window =
      (.ok settings, window) := by
    show (window.world.settings, window) = _
    rw [inForce]
  rw [serve_of_given hint token _ givenSymbol givenProject, start_bind_of_ok loaded,
    start_bind_of_ok (start_get _), environment_host]
  dsimp only
  rw [start_bind_of_ok (Window.start_inWorld_of_course (start_debug _ _ _))]
  exact ⟨_, rfl⟩

end Opener

end SymbolJump
