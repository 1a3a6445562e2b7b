/-
# The call that fails

A host is a function of its state, so the calls that a run makes tell, together with the state it
began in, which of them failed and how. A run that opens a symbol ends with the first call that
fails: it makes no call after it, and its answer is the fault of that call, as an error of the
request where the index or the picker failed. All other faults of such a run are its own, and the
only request errors among them are those of the settings and of names that are no kinds.
-/
import SymbolJump.Proofs.Conditions

namespace SymbolJump

open Act

variable {η α : Type}

/-- The fault that an act ends with, if any, and the state that it leaves. -/
def Act.finish (act : Act η α) (state : η) : Option Fault × η :=
  match act.start state with
  | (.ok _, after) => (none, after)
  | (.error fault, after) => (some fault, after)

/-- The fault that a call ends with, if any, and the state that it leaves the host in. A write
does not reach the host. -/
def Host.finish (host : Host η) (state : η) : Call → Option Fault × η
  | .query text => (host.query text).finish state
  | .findFiles wanted excluded limit => (host.findFiles wanted excluded limit).finish state
  | .load path => (host.load path).finish state
  | .pick prompt candidates => (host.pick prompt candidates).finish state
  | .openProject path newWindow => (host.openProject path newWindow).finish state
  | .showError message => (host.showError message).finish state
  | .reveal location => (host.reveal location).finish state
  | .openSearch text => (host.openSearch text).finish state
  | .wait milliseconds => (host.wait milliseconds).finish state
  | .put _ _ => (none, state)

/-- A call that fails among calls: its fault, and the calls after it. -/
structure Failure where
  call : Call
  fault : Fault
  later : List Call
deriving DecidableEq

namespace Host

variable (host : Host η)

/-- The state of a host after calls. -/
def after (state : η) (calls : List Call) : η :=
  calls.foldl (fun state call => (host.finish state call).2) state

/-- The first call that fails among calls, made one after the other from a state. -/
def failure? : η → List Call → Option Failure
  | _, [] => none
  | state, call :: later =>
      match host.finish state call with
      | (some fault, _) => some ⟨call, fault, later⟩
      | (none, after) => failure? after later

theorem failure?_append (state : η) (calls more : List Call) :
    host.failure? state (calls ++ more) =
      match host.failure? state calls with
      | some failure => some { failure with later := failure.later ++ more }
      | none => host.failure? (host.after state calls) more := by
  induction calls generalizing state with
  | nil => rfl
  | cons call rest ih =>
      rw [List.cons_append, failure?, failure?]
      rcases ended : host.finish state call with ⟨_ | fault, next⟩
      · dsimp only
        rw [ih, after, after, List.foldl_cons, ended]
      · rfl

/-- When no call fails, one more fails if it fails where they lead. -/
theorem failure?_concat {state : η} {calls : List Call} (none : host.failure? state calls = none)
    (call : Call) :
    host.failure? state (calls ++ [call]) =
      (host.finish (host.after state calls) call).1.map (⟨call, ·, []⟩) := by
  rw [failure?_append, none]
  dsimp only
  rw [failure?]
  rcases host.finish (host.after state calls) call with ⟨_ | fault, next⟩
  · rfl
  · rfl

theorem after_concat (state : η) (calls : List Call) (call : Call) :
    host.after state (calls ++ [call]) = (host.finish (host.after state calls) call).2 := by
  rw [after, after, List.foldl_append, List.foldl_cons, List.foldl_nil]

end Host

/-- The fault that a run ends with when a call fails: a failure of the index or the picker is an
error of the request. -/
def Call.surface : Call → Fault → Fault
  | .query _, fault | .pick _ _, fault => .request (Resolution.asRequestError fault)
  | _, fault => fault

/-- Whether a call tells the user of an error. -/
def Call.isMessage : Call → Bool
  | .showError _ => true
  | _ => false

namespace Bench

variable {host : Host η} {start : η}

/-- A bench on which no call has failed, and no message was shown. -/
structure IsSmooth (host : Host η) (start : η) (bench : Bench η) : Prop where
  state : bench.host = host.after start bench.calls
  noFailure : host.failure? start bench.calls = none
  untold : ∀ call ∈ bench.calls, call.isMessage = false

/-- A bench on which the last call failed, and no message was shown. -/
structure FailedBy (host : Host η) (start : η) (call : Call) (fault : Fault)
    (bench : Bench η) : Prop where
  failure : host.failure? start bench.calls = some ⟨call, fault, []⟩
  untold : ∀ call ∈ bench.calls, call.isMessage = false

/-- What the fault of a run tells of the bench it leaves: it is that of the last call, or one of
the engine and no error of a request. -/
def Broken (host : Host η) (start : η) (fault : Fault) (bench : Bench η) : Prop :=
  (∃ call raw, FailedBy host start call raw bench ∧ fault = call.surface raw) ∨
    (IsSmooth host start bench ∧ ∀ error, fault ≠ .request error)

/-- A recorded act of the host that is a call fails as the call. -/
theorem meets_recorded {call : Call} {act : Act η α}
    (same : ∀ state, host.finish state call = act.finish state)
    (silent : call.isMessage = false) :
    Act.Meets (IsSmooth host start) (recorded call act) (fun _ => IsSmooth host start)
      (FailedBy host start call) := by
  intro bench smooth
  have untold : ∀ made ∈ bench.calls ++ [call], made.isMessage = false := by
    intro made member
    rcases List.mem_append.mp member with before | now
    · exact smooth.untold made before
    · rw [List.mem_singleton.mp now]
      exact silent
  have ended := same bench.host
  have failure := host.failure?_concat smooth.noFailure call
  have left := host.after_concat start bench.calls call
  rw [← smooth.state, ended, Act.finish] at failure left
  rw [start_recorded]
  rcases course : act.start bench.host with ⟨fault | answer, after⟩
  · rw [course] at failure
    exact ⟨failure, untold⟩
  · rw [course] at failure left
    exact ⟨left.symm, failure, untold⟩

/-- A message may be shown at last, when showing it never fails. -/
theorem meets_showError
    (showing : ∀ message state, ((host.showError message).start state).1 = .ok ())
    (message : String) (broken : Fault → Bench η → Prop) :
    Act.Meets (IsSmooth host start) (recorded (.showError message) (host.showError message))
      (fun _ bench => host.failure? start bench.calls = none) broken := by
  intro bench smooth
  have shown := showing message bench.host
  have failure := host.failure?_concat smooth.noFailure (.showError message)
  rw [← smooth.state, Host.finish, Act.finish] at failure
  rw [start_recorded]
  rcases course : (host.showError message).start bench.host with ⟨fault | answer, after⟩
  · rw [course] at shown
    nomatch shown
  · rw [course] at failure
    exact failure

/-- A call whose faults are passed on as they are. -/
theorem meets_call {call : Call} {act : Act η α}
    (same : ∀ state, host.finish state call = act.finish state)
    (silent : call.isMessage = false) (passed : ∀ fault, call.surface fault = fault) :
    Act.Meets (IsSmooth host start) (recorded call act) (fun _ => IsSmooth host start)
      (Broken host start) := by
  apply (meets_recorded same silent).weaken id
  intro fault bench failed
  exact .inl ⟨call, fault, failed, (passed fault).symm⟩

/-- Every operation of a recorded host keeps a bench smooth or is the last call. -/
theorem hostOf_meets
    (showing : ∀ message state, ((host.showError message).start state).1 = .ok ()) (start : η) :
    Host.Meets (IsSmooth host start) (fun bench => host.failure? start bench.calls = none)
      (fun fault bench => ∃ call, FailedBy host start call fault bench ∧
        call.surface fault = .request (Resolution.asRequestError fault))
      (Broken host start) (hostOf host) where
  query text := (meets_recorded (fun _ => rfl) rfl).weaken id
    fun failed => ⟨.query text, failed, rfl⟩
  pick prompt candidates := (meets_recorded (fun _ => rfl) rfl).weaken id
    fun failed => ⟨.pick prompt candidates, failed, rfl⟩
  findFiles _ _ _ := meets_call (fun _ => rfl) rfl fun _ => rfl
  load _ := meets_call (fun _ => rfl) rfl fun _ => rfl
  wait _ := meets_call (fun _ => rfl) rfl fun _ => rfl
  reveal _ := (meets_call (fun _ => rfl) rfl fun _ => rfl).weaken IsSmooth.noFailure id
  openSearch _ := (meets_call (fun _ => rfl) rfl fun _ => rfl).weaken IsSmooth.noFailure id
  showError message := meets_showError showing message _
  log _ _ smooth := ⟨smooth.state, smooth.noFailure, smooth.untold⟩
  silent := IsSmooth.noFailure
  passed := fun ⟨call, failed, surface⟩ => .inl ⟨call, _, failed, surface.symm⟩
  own other smooth := .inr ⟨smooth, other⟩

end Bench

/-- The settings or the query give a name that is no kind. -/
def Resolution.NamesUnknown (settings : Settings) (query : Query) (error : RequestError) : Prop :=
  Priority.ofNames settings.priority = .error error ∨
    (∃ priority, Priority.ofNames settings.priority = .ok priority) ∧
      Kind.ofHint query.hint = .error error

section Names

variable {σ : Type} (host : Host σ) {query : Query} {settings : Settings}
  (token : Option (σ → Bool))

/-- Unknown names end a query before its first round. -/
theorem Resolution.resolve_of_namesUnknown {error : RequestError}
    (unknown : NamesUnknown settings query error) :
    resolve host query settings token = throw (.request error) := by
  unfold resolve
  rcases unknown with refused | ⟨⟨priority, known⟩, refused⟩
  · rw [refused]
  · rw [known]
    dsimp only
    rw [refused]

theorem Resolution.resolve_of_known (known : ∀ error, ¬ NamesUnknown settings query error) :
    ∃ admitted priority, resolve host query settings token =
      rounds host query admitted priority settings token 1 settings.retryCount := by
  unfold resolve
  rcases named : Priority.ofNames settings.priority with error | priority
  · exact absurd (.inl named) (known error)
  dsimp only
  rcases hinted : Kind.ofHint query.hint with error | admitted
  · exact absurd (.inr ⟨⟨priority, named⟩, hinted⟩) (known error)
  · exact ⟨admitted, priority, rfl⟩

end Names

namespace Bench

/-- Waking the index, on a bench where nothing has happened yet. -/
def waking (host : Host η) (settings : Settings) (start : η) : Except Fault Unit × Bench η :=
  (Activation.activate (hostOf host) settings.detectors settings.language).start
    { host := start, settings := .ok settings }

/-- Why a symbol is not opened although no call fails. -/
inductive Unopened (host : Host η) (settings : Except Fault Settings) (start : η)
    (query : Query) (error : RequestError) : Prop
  | refused (refused : settings = .error (.request error))
  | unnamed {inForce : Settings} (holds : settings = .ok inForce)
      (woken : (waking host inForce start).1 = .ok ())
      (unknown : Resolution.NamesUnknown inForce query error)

variable {host : Host η} {settings : Except Fault Settings} {start : η} {query : Query}
  {token : Option (η → Bool)}

theorem opening_of_refused (fault : Fault) :
    opening host (.error fault) start query token =
      (.error fault, { host := start, settings := .error fault }) :=
  start_bind_of_error (start_loadSettings _) _

/-- Under settings that hold, a symbol is opened in four acts. -/
theorem opening_of_inForce (inForce : Settings) :
    opening host (.ok inForce) start query token =
      (do
        Activation.activate (hostOf host) inForce.detectors inForce.language
        (hostOf host).info ("resolving symbol: " ++ query.name ++ Opener.hintText query.hint)
        let outcome ← Resolution.resolve (hostOf host) query inForce
          (token.map fun cancelled bench => cancelled bench.host)
        Opener.present (environment host) query inForce outcome
        return outcome : Act (Bench η) Outcome).start
        { host := start, settings := .ok inForce } :=
  start_bind_of_ok (start_loadSettings _) _

theorem isSmooth_nil (settings : Except Fault Settings) :
    IsSmooth host start { host := start, settings } :=
  ⟨rfl, rfl, List.forall_mem_nil _⟩

variable (token) in
/-- What is not opened is answered with its error. -/
theorem opening_of_unopened {error : RequestError}
    (unopened : Unopened host settings start query error) :
    (opening host settings start query token).1 = .error (.request error) := by
  rcases unopened with rfl | ⟨rfl, woken, unknown⟩
  · rw [opening_of_refused]
  rw [opening_of_inForce, Resolution.resolve_of_namesUnknown _ _ unknown]
  rcases course : waking host _ start with ⟨fault | done, bench⟩
  · rw [course] at woken
    nomatch woken
  · rw [start_bind_of_ok course]
    rfl

/-- What is said of opening a symbol: a call that fails is its last one and settles its answer,
and other request errors are those of settings and names. -/
structure EndsAtFailure (host : Host η) (settings : Except Fault Settings) (start : η)
    (query : Query) (answer : Except Fault Outcome) (bench : Bench η) : Prop where
  last : ∀ failure, host.failure? start bench.calls = some failure →
    failure.later = [] ∧ answer = .error (failure.call.surface failure.fault)
  untold : ∀ fault, answer = .error fault → ∀ call ∈ bench.calls, call.isMessage = false
  raised : ∀ error, answer = .error (.request error) →
    Unopened host settings start query error ∨
      ∃ failure, host.failure? start bench.calls = some failure ∧
        failure.call.surface failure.fault = .request error

theorem endsAtFailure_of_smooth {fault : Fault} {bench : Bench η}
    (smooth : IsSmooth host start bench)
    (unopened : ∀ error, fault = .request error → Unopened host settings start query error) :
    EndsAtFailure host settings start query (.error fault) bench where
  last _ found := nomatch smooth.noFailure.symm.trans found
  untold _ _ := smooth.untold
  raised error same := .inl (unopened error (Except.error.inj same))

theorem endsAtFailure_of_broken {fault : Fault} {bench : Bench η}
    (broken : Broken host start fault bench) :
    EndsAtFailure host settings start query (.error fault) bench := by
  obtain ⟨call, raw, failed, surface⟩ | ⟨smooth, other⟩ := broken
  · constructor
    · intro failure found
      obtain rfl := Option.some.inj (failed.failure.symm.trans found)
      exact ⟨rfl, congrArg _ surface⟩
    · intro _ _
      exact failed.untold
    · intro error same
      exact .inr ⟨_, failed.failure, surface.symm.trans (Except.error.inj same)⟩
  · exact endsAtFailure_of_smooth smooth fun error same => absurd same (other error)

variable (start token) in
/-- After names that are known, each call of a run but the last one is answered. -/
theorem meets_opening {inForce : Settings} (message : String)
    (showing : ∀ message state, ((host.showError message).start state).1 = .ok ())
    (known : ∀ error, ¬ Resolution.NamesUnknown inForce query error) :
    Act.Meets (IsSmooth host start)
      (do
        Activation.activate (hostOf host) inForce.detectors inForce.language
        (hostOf host).info message
        let outcome ← Resolution.resolve (hostOf host) query inForce
          (token.map fun cancelled bench => cancelled bench.host)
        Opener.present (environment host) query inForce outcome
        return outcome : Act (Bench η) Outcome)
      (fun _ bench => host.failure? start bench.calls = none) (Broken host start) := by
  have meets := hostOf_meets showing start
  obtain ⟨admitted, priority, resolves⟩ := Resolution.resolve_of_known (hostOf host)
    (token.map fun cancelled bench => cancelled bench.host) known
  rw [resolves]
  apply (meets.activate _ _).bind
  intro woken
  apply (meets.info _).bind
  intro logged
  apply (meets.rounds query admitted priority inForce _ 1 _).bind
  intro outcome
  apply (meets.present rfl query inForce outcome).bind
  intro shown
  exact meets_pure id

variable (settings start query token) in
/-- A run that opens a symbol ends with the first call that fails. -/
theorem endsAtFailure_opening
    (showing : ∀ message state, ((host.showError message).start state).1 = .ok ()) :
    let alone := opening host settings start query token
    EndsAtFailure host settings start query alone.1 alone.2 := by
  rcases settings with fault | inForce
  · rw [opening_of_refused]
    apply endsAtFailure_of_smooth (isSmooth_nil _)
    intro error same
    exact .refused (congrArg _ same)
  rw [opening_of_inForce]
  by_cases unknown : ∃ error, Resolution.NamesUnknown inForce query error
  · obtain ⟨error, unknown⟩ := unknown
    have meets := hostOf_meets showing start
    have woken := meets.activate inForce.detectors inForce.language (isSmooth_nil (.ok inForce))
    rw [Resolution.resolve_of_namesUnknown _ _ unknown]
    rcases course : waking host inForce start with ⟨fault | done, bench⟩
    · rw [start_bind_of_error course]
      rw [← waking, course] at woken
      exact endsAtFailure_of_broken woken
    · rw [start_bind_of_ok course]
      rw [← waking, course] at woken
      apply endsAtFailure_of_smooth (meets.log _ woken)
      intro other same
      rw [← Fault.request.inj same]
      exact .unnamed rfl (congrArg Prod.fst course) unknown
  · have ended := meets_opening start token
      ("resolving symbol: " ++ query.name ++ Opener.hintText query.hint) showing
      (fun error unnamed => unknown ⟨error, unnamed⟩) (isSmooth_nil (.ok inForce))
    generalize Act.start _ _ = course at ended ⊢
    rcases course with ⟨fault | outcome, bench⟩
    · exact endsAtFailure_of_broken ended
    · constructor
      · intro failure found
        nomatch ended.symm.trans found
      · intro fault same
        nomatch same
      · intro error same
        nomatch same

end Bench

end SymbolJump
