/-
# Exit statuses

A command should tell by its status how it ended: one when the symbol was not found or an error was
reported, and zero when the symbol was found, the choice was dismissed, the request was handed over
or there was nothing to do. To say so, the run of a command is retold with an account of how it
ended. The account changes nothing, so what it says is what happened.

The status is right except in one case: a pending request that is resumed and not found gives zero.
The outcome of a resumed request is dropped on the way, and only reported errors are remembered.
-/
import SymbolJump.CommandLine.Run
import SymbolJump.Proofs.Conditions
import SymbolJump.Proofs.Openers
import SymbolJump.Proofs.RefusedConfigurations

namespace SymbolJump

open Act

/-- How the run of a command ended. -/
inductive Ending
  /-- A query was resolved, and its outcome was shown. -/
  | resolved (outcome : Outcome)
  /-- The request was handed over to another instance. -/
  | handedOver
  /-- There was no pending request for this instance. -/
  | nothingToDo
  | reported (error : RequestError)
deriving DecidableEq

namespace Ending

/-- The status that tells how a run ended. -/
def status : Ending → Nat
  | resolved .notFound | reported _ => 1
  | resolved _ | handedOver | nothingToDo => 0

/-- The outcome that a run ended with. -/
def outcome? : Ending → Option Outcome
  | resolved outcome => some outcome
  | _ => none

end Ending

variable {σ α β γ : Type}

namespace Act

/-- An act takes the course of another one, and its answer is read off the other answer and the
state in which it ends. -/
def ReadOff (act : Act σ α) (other : Act σ β) (read : β → σ → α) : Prop :=
  ∀ state, act.start state =
    ((other.start state).1.map (read · (other.start state).2), (other.start state).2)

theorem ReadOff.bind {first : Act σ γ} {act : γ → Act σ α} {other : γ → Act σ β}
    {read : β → σ → α} (rest : ∀ answer, ReadOff (act answer) (other answer) read) :
    ReadOff (first >>= act) (first >>= other) read := by
  intro state
  rw [start_bind, start_bind]
  rcases first.start state with ⟨fault | answer, after⟩
  · rfl
  · exact rest answer after

end Act

namespace Handoff

open Window

variable (env : Environment σ)

/-- Take the pending request when its project is open here, and say what resuming it came to. -/
def takePending (resume : PendingRequest → Act (Window σ) α) : Act (Window σ) (Option α) := do
  match ← inWorld (Slot.peek env.host env.store) with
  | none => return none
  | some request =>
      let roots := env.host.roots (← get).world
      if Path.isOpenAmong request.project roots then
        inWorld (Slot.clear env.store)
        take .consumed
        inWorld (env.host.info ("processing pending request: " ++ request.symbol))
        return some (← resume request)
      else
        inWorld (env.host.debug ("pending request for " ++ request.project ++
          " does not match open roots " ++ Json.shownTexts roots))
        take .skipped
        return none

theorem processPending_eq (resume : PendingRequest → Act (Window σ) α) :
    processPending env (fun request => do let _ ← resume request) = do
      let _ ← takePending env resume
      return (← get).standing := by
  unfold processPending takePending
  simp only [bind_assoc]
  refine bind_congr fun found => ?_
  cases found with
  | none => simp only [pure_bind]
  | some request =>
      simp only [bind_assoc]
      refine bind_congr fun window => ?_
      split
      · simp only [bind_assoc, pure_bind]
      · simp only [bind_assoc, pure_bind]

end Handoff

namespace Opener

open Window

variable (env : Environment σ)

/-- A run whose request errors are reported, with an account of how it ended: with the outcome that
it came to, or in another way. -/
def accounting (otherwise : Ending) (run : Act (Window σ) (Option Outcome)) :
    Act (Window σ) Ending :=
  tryCatch (do return ((← run).map Ending.resolved).getD otherwise) fun fault =>
    match fault with
    | .request error => do
        report env error
        return .reported error
    | fault => throw fault

/-- Reporting takes the course of the account. -/
theorem readOff_reporting {act instead : Act (Window σ) α} {run : Act (Window σ) (Option Outcome)}
    {otherwise : Ending} {read : Ending → Window σ → α}
    (same : ReadOff act run fun outcome => read ((outcome.map Ending.resolved).getD otherwise))
    (quiet : ∀ error after, instead.start after = (.ok (read (.reported error) after), after)) :
    ReadOff (reporting env act instead) (accounting env otherwise run) read := by
  intro window
  unfold reporting accounting
  rw [start_tryCatch, start_tryCatch, start_bind_pure, same window]
  rcases run.start window with ⟨fault | outcome, after⟩
  · cases fault with
    | request error =>
        have told : ReadOff (do report env error; instead)
            (do report env error; return .reported error) read :=
          .bind fun _ => quiet error
        exact told after
    | _ => rfl
  · rfl

/-- Look at the pending request, with an account of it. -/
def drainEnding : Act (Window σ) Ending :=
  accounting env .nothingToDo <| Handoff.takePending env fun request =>
    inWorld (openSymbol env ⟨request.symbol, request.hint⟩ none)

theorem readOff_drain : ReadOff (drain env) (drainEnding env) fun _ window => window.standing := by
  refine readOff_reporting env ?_ fun error after => rfl
  have taken := Handoff.processPending_eq env fun request =>
    inWorld (openSymbol env ⟨request.symbol, request.hint⟩ none)
  intro window
  refine (congrArg (Act.start · window) taken).trans ?_
  rw [start_bind]
  rcases (Handoff.takePending env _).start window with ⟨fault | found, after⟩ <;> rfl

/-- Handle a URI, with an account of it. -/
def uriEnding (uri : String) : Act (Window σ) Ending := do
  inWorld (env.host.info ("URI received: " ++ uri))
  match OpenRequest.ofUri uri with
  | .error error => throw (.refusal (.authority error))
  | .ok request =>
      inWorld (env.host.debug ("parsed symbol: " ++ (Json.ofText? request.symbol).worded ++
        ", cwd: " ++ (Json.ofText? request.project).worded))
      accounting env .handedOver (serve env request.symbol request.project request.kind none)

theorem readOff_handleUri (uri : String) :
    ReadOff (handleUri env uri) (uriEnding env uri) fun ending _ => ending.outcome? := by
  refine .bind fun _ => ?_
  cases OpenRequest.ofUri uri with
  | error error => exact fun window => rfl
  | ok request =>
      refine .bind fun _ => readOff_reporting env (fun window => ?_) fun error after => rfl
      rcases (serve env request.symbol request.project request.kind none).start window with
        ⟨fault | _ | outcome, after⟩ <;> rfl

/-- A window remembers an error or none. -/
def Remembers (error : Option RequestError) (window : Window σ) : Prop :=
  window.lastError = error

/-- An act reports no error. -/
def IsQuiet (act : Act (Window σ) α) : Prop :=
  ∀ error, Meets (Remembers error) act (fun _ => Remembers error) fun _ => Remembers error

theorem isQuiet_inWorld (act : Act σ α) : IsQuiet (inWorld act) := by
  intro error window here
  rw [start_inWorld]
  rcases act.start window.world with ⟨fault | answer, world⟩
  · exact here
  · exact here

theorem isQuiet_take (standing : Standing) : IsQuiet (take standing : Act (Window σ) Unit) :=
  fun _ => meets_modify id

theorem IsQuiet.bind {act : Act (Window σ) α} {next : α → Act (Window σ) β} (here : IsQuiet act)
    (later : ∀ answer, IsQuiet (next answer)) : IsQuiet (act >>= next) :=
  fun error => (here error).bind fun answer => later answer error

theorem isQuiet_pure (answer : α) : IsQuiet (pure answer : Act (Window σ) α) :=
  fun _ => meets_pure id

theorem isQuiet_throw (fault : Fault) : IsQuiet (throw fault : Act (Window σ) α) :=
  fun _ => meets_throw id

theorem isQuiet_get_bind {next : Window σ → Act (Window σ) α}
    (rest : ∀ window, IsQuiet (next window)) : IsQuiet (get >>= next) :=
  fun error => meets_get_bind fun {window} _ => rest window error

theorem isQuiet_takePending {resume : PendingRequest → Act (Window σ) α}
    (quiet : ∀ request, IsQuiet (resume request)) :
    IsQuiet (Handoff.takePending env resume) := by
  refine (isQuiet_inWorld _).bind fun found => ?_
  cases found with
  | none => exact isQuiet_pure none
  | some request =>
      refine isQuiet_get_bind fun window => ?_
      dsimp only
      split
      · exact (isQuiet_inWorld _).bind fun _ => (isQuiet_take _).bind fun _ =>
          (isQuiet_inWorld _).bind fun _ => (quiet request).bind fun _ => isQuiet_pure _
      · exact (isQuiet_inWorld _).bind fun _ => (isQuiet_take _).bind fun _ => isQuiet_pure _

theorem isQuiet_handOff (request : PendingRequest) (policy : NotOpenPolicy) :
    IsQuiet (Handoff.handOff env request policy) := by
  unfold Handoff.handOff
  split
  · exact isQuiet_throw _
  · exact (isQuiet_inWorld _).bind fun _ => (isQuiet_take _).bind fun _ =>
      (isQuiet_inWorld _).bind fun _ => (isQuiet_inWorld _).bind fun _ =>
        isQuiet_get_bind fun _ => isQuiet_pure _

theorem isQuiet_serve (symbol project hint : Option String) (token : Option (σ → Bool)) :
    IsQuiet (serve env symbol project hint token) := by
  unfold serve
  split
  case h_5 =>
    refine (isQuiet_inWorld _).bind fun settings => isQuiet_get_bind fun window => ?_
    refine (isQuiet_inWorld _).bind fun _ => ?_
    split
    · exact (isQuiet_inWorld _).bind fun _ => isQuiet_pure _
    · exact (isQuiet_handOff env _ _).bind fun _ => isQuiet_pure _
  all_goals exact isQuiet_throw _

end Opener

/-- The error that was reported, if a run ended so. -/
def Ending.error? : Ending → Option RequestError
  | reported error => some error
  | _ => none

namespace Opener

open Window

variable (env : Environment σ)

/-- A report is remembered, whatever was remembered before. -/
theorem meets_report (error : RequestError) {before : Window σ → Prop} :
    Meets before (report env error) (fun _ => Remembers (some error)) fun _ _ => True := by
  have kept : Meets before
      (modify fun window => { window with lastError := some error } : Act (Window σ) Unit)
      (fun _ => Remembers (some error)) fun _ _ => True := meets_modify fun _ => rfl
  have quiet := (isQuiet_inWorld (env.host.error error.message)).bind fun _ =>
    isQuiet_inWorld (env.host.showError error.message)
  exact kept.bind fun _ => (quiet (some error)).weaken id fun _ => trivial

/-- The error that is remembered is the one that the account tells of. -/
theorem meets_accounting {run : Act (Window σ) (Option Outcome)} {otherwise : Ending}
    (quiet : IsQuiet run) (unreported : otherwise.error? = none) :
    Meets (Remembers none) (accounting env otherwise run) (fun ending => Remembers ending.error?)
      fun _ _ => True := by
  have remembers (outcome : Option Outcome) {window : Window σ} (here : Remembers none window) :
      Remembers (((outcome.map Ending.resolved).getD otherwise).error?) window := by
    cases outcome with
    | none => exact here.trans unreported.symm
    | some outcome => exact here
  have ended : Meets (Remembers none)
      (do return ((← run).map Ending.resolved).getD otherwise)
      (fun ending => Remembers ending.error?) fun _ => Remembers none :=
    (quiet none).bind fun outcome => meets_pure (remembers outcome)
  refine ended.tryCatch fun fault => ?_
  cases fault with
  | request error => exact (meets_report env error).bind fun _ => meets_pure id
  | _ => exact meets_throw fun _ => trivial

end Opener

namespace CommandLine

open Opener Window

section Perform

variable (env : Environment Machine)

/-- What a command does in a window, with an account of it. -/
def ending : Command → Act (Window Machine) Ending
  | .resume => drainEnding env
  | .openUri uri => uriEnding env uri

/-- The status of a command for the account of its run. -/
def statusFor (command : Command) (ending : Ending) : Nat :=
  if command = .resume ∧ ending = .resolved .notFound then 0 else ending.status

theorem meets_ending (command : Command) :
    Meets (Remembers none) (ending env command) (fun ending => Remembers ending.error?)
      fun _ _ => True := by
  cases command with
  | resume =>
      exact meets_accounting env (isQuiet_takePending env fun _ => isQuiet_inWorld _) rfl
  | openUri uri =>
      refine Meets.bind ((isQuiet_inWorld _ none).weaken id fun _ => trivial) fun _ => ?_
      cases OpenRequest.ofUri uri with
      | error error => exact meets_throw fun _ => trivial
      | ok request =>
          refine Meets.bind ((isQuiet_inWorld _ none).weaken id fun _ => trivial) fun _ => ?_
          exact meets_accounting env (isQuiet_serve env _ _ _ _) rfl

theorem statusOf_of_remembers {ending : Ending} {window : Window Machine}
    (remembers : Remembers ending.error? window) :
    statusOf window = if ending.error?.isSome then 1 else 0 := by
  rw [statusOf, show window.lastError = ending.error? from remembers]

/-- A command takes the course of its account, and its status is told by the account. -/
theorem start_perform (command : Command) {window : Window Machine}
    (fresh : window.lastError = none) :
    (perform env command).start window =
      (((ending env command).start window).1.map (statusFor command),
        ((ending env command).start window).2) := by
  have ended := meets_ending env command fresh
  cases command with
  | resume =>
      unfold perform
      rw [start_bind, readOff_drain env window]
      dsimp only [ending] at ended ⊢
      rcases course : (drainEnding env).start window with ⟨fault | ending, after⟩
      · rfl
      · rw [course] at ended
        have status : statusOf after = statusFor .resume ending := by
          rw [statusOf_of_remembers ended]
          rcases ending with (_ | _ | _) | _ | _ | _ <;> rfl
        exact congrArg (fun status => (Except.ok status, after)) status
  | openUri uri =>
      unfold perform
      rw [start_bind, readOff_handleUri env uri window]
      dsimp only [ending] at ended ⊢
      rcases course : (uriEnding env uri).start window with ⟨fault | ending, after⟩
      · rfl
      · rw [course] at ended
        have status := statusOf_of_remembers ended
        rcases ending with (_ | _ | _) | _ | _ | _
        case resolved.notFound => rfl
        all_goals exact congrArg (fun status => (Except.ok status, after)) status

end Perform

variable (installation : Installation)

/-- Run an act of an opener for an invocation. -/
def attemptWith (invocation : Invocation)
    (act : Environment Machine → Act (Window Machine) α) : Act Machine α := do
  let settings ← loadSettings installation invocation
  modify fun machine => { machine with logLevel := some settings.logLevel, documents := [] }
  let disk := (← get).disk
  let roots :=
    if invocation.roots.isEmpty then [Files.pathOf disk.current] else invocation.roots
  let terminal ←
    Act.ofExcept (Terminal.setUp disk roots invocation.index settings.editorCommand)
  let env := environment installation invocation { terminal with reach := installation.reach }
  Act.ofCourse fun machine =>
    let (answer, window) := (act env).start { world := machine }
    (answer, window.world)

theorem attempt_eq (invocation : Invocation) :
    attempt installation invocation =
      attemptWith installation invocation (perform · invocation.command) := rfl

/-- How the run of an invocation ends. -/
def endingOf (invocation : Invocation) : Act Machine Ending :=
  attemptWith installation invocation (ending · invocation.command)

/-- An invocation takes the course of its account, and its status is told by the account. -/
theorem readOff_attempt (invocation : Invocation) :
    ReadOff (attempt installation invocation) (endingOf installation invocation) fun ending _ =>
      statusFor invocation.command ending := by
  rw [attempt_eq]
  unfold endingOf attemptWith
  refine .bind fun settings => .bind fun _ => .bind fun here => .bind fun terminal machine => ?_
  rw [start_ofCourse, start_ofCourse, start_perform _ _ rfl]

/-- The status of a run tells how it ended, unless a pending request was resumed and not found: then
it is zero. -/
theorem status_tells_iff (invocation : Invocation) (machine : Machine) :
    let account := (endingOf installation invocation).start machine
    let run := (attempt installation invocation).start machine
    run.2 = account.2 ∧
      (∀ fault, run.1 = .error fault ↔ account.1 = .error fault) ∧
      ∀ ending, account.1 = .ok ending →
        (run.1 = .ok ending.status ↔
          ¬ (invocation.command = .resume ∧ ending = .resolved .notFound)) ∧
        (invocation.command = .resume → ending = .resolved .notFound → run.1 = .ok 0) ∧
        ∀ status, run.1 = .ok status →
          runInvocation installation invocation machine = (.status status, run.2) := by
  intro account run
  have course : run = (account.1.map (statusFor invocation.command), account.2) :=
    readOff_attempt installation invocation machine
  refine ⟨congrArg Prod.snd course, fun fault => ?_, fun ending ended => ?_⟩
  · rw [course]
    cases account.1 with
    | error other =>
        constructor
        · exact fun same => congrArg Except.error (Except.error.inj same)
        · exact fun same => congrArg Except.error (Except.error.inj same)
    | ok ending => exact iff_of_false (fun same => nomatch same) fun same => nomatch same
  · have status : run.1 = .ok (statusFor invocation.command ending) := by
      rw [course, ended]
      rfl
    refine ⟨?_, fun resumes notFound => ?_, fun other same => ?_⟩
    · rw [status, statusFor]
      split
      · next slip =>
        refine iff_of_false (fun same => ?_) fun other => other slip
        rw [slip.2] at same
        nomatch same
      · next right => exact iff_of_true rfl right
    · rw [status, statusFor, if_pos ⟨resumes, notFound⟩]
    · have here : (attempt installation invocation).start machine = (.ok other, run.2) :=
        Prod.ext same rfl
      rw [runInvocation, here]

/-- A symbol that a URI asks for and no index has gives the status one. -/
theorem status_of_missing_symbol :
    let machine : Machine := { disk := {
      tree := .folder [("app", .folder []),
        ("c.yml", .file (Text.Utf8.encode "\x7bretry_count: 1\x7d"))]
      current := [] } }
    let invocation : Invocation :=
      { config := some "/c.yml", state := some "/s.json", index := "/i.json", roots := ["/app"]
        command := .openUri "symbol-opener://open?symbol=Nope&cwd=/app" }
    ((endingOf plainInstallation invocation).start machine).1 = .ok (.resolved .notFound) ∧
      ((attempt plainInstallation invocation).start machine).1 = .ok 1 := by
  intro machine invocation
  have ended : ((endingOf plainInstallation invocation).start machine).1 =
      .ok (.resolved .notFound) := by
    decide +kernel
  obtain ⟨-, -, told⟩ := status_tells_iff plainInstallation invocation machine
  exact ⟨ended, (told _ ended).1.mpr fun slip => nomatch slip.1⟩

/-- A pending request for a symbol that no index has is resumed, and gives the status zero. -/
theorem status_of_missing_pending_symbol :
    let request : Json Text.Wide :=
      .object [("symbol", .text (Text.wide "Nope")), ("cwd", .text (Text.wide "/app"))]
    let record : Json Text.Wide := .object [("meta", .object [("schema_version", .int 1)]),
      ("values", .object [("symbolOpener.pendingRequest", request)])]
    let machine : Machine := { disk := {
      tree := .folder [("app", .folder []),
        ("c.yml", .file (Text.Utf8.encode "\x7bretry_count: 1\x7d")),
        ("s.json", .file (Text.Utf8.encode (Json.compact record)))]
      current := [] } }
    let invocation : Invocation :=
      { config := some "/c.yml", state := some "/s.json", index := "/i.json", roots := ["/app"]
        command := .resume }
    ((endingOf plainInstallation invocation).start machine).1 = .ok (.resolved .notFound) ∧
      ((attempt plainInstallation invocation).start machine).1 = .ok 0 := by
  intro request record machine invocation
  have ended : ((endingOf plainInstallation invocation).start machine).1 =
      .ok (.resolved .notFound) := by
    decide +kernel
  refine ⟨ended, ?_⟩
  rw [readOff_attempt plainInstallation invocation machine, ended]
  rfl

end CommandLine

end SymbolJump
