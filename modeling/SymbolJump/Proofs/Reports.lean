/-
# Errors and their reports

An error of a request that arises anywhere in an event is told to the user once, by the last call
that the event makes. The event then ends without an outcome, and no call comes between the one
that failed and the message. The instance remembers the error until the next one, so after any run
its last error is the one that it reported last. An outcome is no error: a message that nothing was
found is not remembered.
-/
import SymbolJump.Proofs.Steps

namespace SymbolJump

open Act Opener

variable {η : Type}

namespace Session

/-- An error of a request arises in an event that makes the given calls: the request is rejected,
its symbol is not opened because of settings or names, or a call fails. -/
inductive Arises (host : Host η) (session : Session η) (seat : Seat η) (event : Event η)
    (calls : List Call) : RequestError → Prop
  | rejected {demand : Demand η} {error : RequestError} (asked : event.demand? = some demand)
      (rejects : Rejects host session.settings seat.host demand.symbol demand.project error) :
      Arises host session seat event calls error
  | unopened {query : Query} {token : Option (η → Bool)} {error : RequestError}
      (opens : Opens host session.slot seat event query token)
      (unopened : Bench.Unopened host session.settings seat.host query error) :
      Arises host session seat event calls error
  | failed {failure : Failure} {error : RequestError}
      (found : host.failure? seat.host calls = some failure)
      (surface : failure.call.surface failure.fault = .request error) :
      Arises host session seat event calls error

/-- An error is surfaced by a step: its message is the last call and the only one of its kind, the
step comes to nothing, and the instance remembers the error. -/
structure Surfaces (number : Nat) (event : Event η) (error : RequestError)
    (course : Report × Session η) : Prop where
  told : ∃ made, course.1.calls = made ++ [.showError error.message] ∧
    ∀ call ∈ made, call.isMessage = false
  seat : ∃ after, course.2.seats[number]? = some after ∧ after.lastError = some error ∧
    course.1.answer = .ok (event.unanswered after.standing)

/-- What is said of errors in one step at a seat. -/
structure SurfacesErrors (host : Host η) (session : Session η) (number : Nat) (event : Event η)
    (seat : Seat η) : Prop where
  surfaces : ∀ error,
    Arises host session seat event (session.step host number event).1.calls error →
      Surfaces number event error (session.step host number event)
  /-- Nothing follows a call that fails but the message. -/
  last : ∀ failure error,
    host.failure? seat.host (session.step host number event).1.calls = some failure →
      failure.call.surface failure.fault = .request error →
        failure.later = [.showError error.message]
  /-- The last error changes with an error that arises, and not otherwise. -/
  kept : (∀ error,
      ¬ Arises host session seat event (session.step host number event).1.calls error) →
    ∃ after, (session.step host number event).2.seats[number]? = some after ∧
      after.lastError = seat.lastError
  /-- Whatever the outcome is, and however it is shown, it is no error. -/
  outcome : ∀ query token outcome, Opens host session.slot seat event query token →
    (Bench.opening host session.settings seat.host query token).1 = .ok outcome →
      ∃ after, (session.step host number event).2.seats[number]? = some after ∧
        after.lastError = seat.lastError

variable {host : Host η} {session : Session η} {number : Nat} {event : Event η} {seat : Seat η}

/-- Writes do not fail. -/
theorem failure?_writes_append (host : Host η) (state : η) {before : List Call}
    (writes : ∀ call ∈ before, call.isWrite) (calls : List Call) :
    host.failure? state (before ++ calls) = host.failure? state calls := by
  induction before with
  | nil => rfl
  | cons call rest ih =>
      cases call with
      | put key value => exact ih fun call member => writes call (List.mem_cons_of_mem _ member)
      | _ => nomatch writes _ List.mem_cons_self

theorem isMessage_of_isWrite {call : Call} (writes : call.isWrite) : call.isMessage = false := by
  cases call with
  | put key value => rfl
  | _ => nomatch writes

theorem Arises.append {made : List Call} {error : RequestError}
    (arises : Arises host session seat event made error) (more : List Call) :
    Arises host session seat event (made ++ more) error := by
  cases arises with
  | rejected asked rejects => exact .rejected asked rejects
  | unopened opens unopened => exact .unopened opens unopened
  | failed found surface =>
      have still := host.failure?_append seat.host made more
      rw [found] at still
      exact .failed still surface

/-- What is said of the calls of a step before its report: one that fails is the last of them and
settles what is reported, and an error that is reported has arisen. -/
structure Settles (host : Host η) (session : Session η) (seat : Seat η) (event : Event η)
    (made : List Call) (answer : Except Fault Unit) : Prop where
  last : ∀ failure, host.failure? seat.host made = some failure →
    failure.later = [] ∧ answer = .error (failure.call.surface failure.fault)
  untold : ∀ fault, answer = .error fault → ∀ call ∈ made, call.isMessage = false
  arises : ∀ error, answer = .error (.request error) →
    Arises host session seat event made error

theorem settles_of_no_call {fault : Fault}
    (arises : ∀ error, fault = .request error → Arises host session seat event [] error) :
    Settles host session seat event [] (.error fault) where
  last _ found := nomatch found
  untold _ _ _ member := nomatch member
  arises error same := arises error (Except.error.inj same)

theorem settles_of_writes {made : List Call} (writes : ∀ call ∈ made, call.isWrite) :
    Settles host session seat event made (.ok ()) where
  last failure found := by
    have silent := failure?_writes_append host seat.host writes []
    rw [List.append_nil] at silent
    nomatch silent.symm.trans found
  untold _ failed := nomatch failed
  arises _ failed := nomatch failed

theorem settles_of_handsOver (record : Json) (path : String) (newWindow : Bool) :
    let opened := (host.openProject path newWindow).start seat.host
    Settles host session seat event [.put Slot.key record, .openProject path newWindow]
      (opened.1.map fun _ => ()) := by
  intro opened
  have saved : host.failure? seat.host [.put Slot.key record] = none := rfl
  have failure := host.failure?_concat saved (.openProject path newWindow)
  rw [Host.after, List.foldl_cons, List.foldl_nil, Host.finish, Host.finish, Act.finish] at failure
  constructor
  · intro found same
    rcases course : (host.openProject path newWindow).start seat.host with ⟨fault | done, after⟩
    · rw [course] at failure
      obtain rfl := Option.some.inj (failure.symm.trans same)
      exact ⟨rfl, congrArg (Except.map _) (congrArg Prod.fst course)⟩
    · rw [course] at failure
      cases failure.symm.trans same
  · intro fault failed call member
    rcases List.mem_cons.mp member with rfl | member
    · rfl
    · rw [List.mem_singleton.mp member]
      rfl
  · intro error failed
    rcases course : (host.openProject path newWindow).start seat.host with ⟨fault | done, after⟩
    · rw [course] at failure
      have same := (map_eq_error_iff _ _ _).mp failed
      exact .failed failure (Except.error.inj ((congrArg Prod.fst course).symm.trans same))
    · have same := (map_eq_error_iff _ _ _).mp failed
      cases (congrArg Prod.fst course).symm.trans same

/-- A step comes to calls that settle what it reports. -/
def IsSettled (host : Host η) (session : Session η) (number : Nat) (event : Event η)
    (seat : Seat η) : Prop :=
  ∃ made answer state, Comes host session number event seat made answer state ∧
    Settles host session seat event made answer

theorem isSettled_of_rejects {demand : Demand η} {error : RequestError}
    (there : session.seats[number]? = some seat) (asked : event.demand? = some demand)
    (rejects : Rejects host session.settings seat.host demand.symbol demand.project error) :
    IsSettled host session number event seat := by
  refine ⟨_, _, _, (comes_of_rejects there asked rejects).map fun _ => (), ?_⟩
  apply settles_of_no_call
  intro other same
  rw [← Fault.request.inj same]
  exact .rejected asked rejects

theorem reported_aftermath {α : Type} (state : η) {answer : Except Fault α}
    (other : ∀ error, answer ≠ .error (.request error)) :
    (aftermath host state answer).reported = none := by
  rcases answer with fault | answer
  · cases fault with
    | request error => exact absurd rfl (other error)
    | _ => rfl
  · rfl

section Reporting

variable (showing : ∀ message state, ((host.showError message).start state).1 = .ok ())

include showing

theorem settles_of_opens {query : Query} {token : Option (η → Bool)} {before : List Call}
    (opens : Opens host session.slot seat event query token)
    (writes : ∀ call ∈ before, call.isWrite) :
    let alone := Bench.opening host session.settings seat.host query token
    Settles host session seat event (before ++ alone.2.calls) (alone.1.map fun _ => ()) := by
  intro alone
  have ends := Bench.endsAtFailure_opening session.settings seat.host query token showing
  have same := failure?_writes_append host seat.host writes alone.2.calls
  constructor
  · intro failure found
    obtain ⟨final, answered⟩ := ends.last failure (same.symm.trans found)
    exact ⟨final, (map_eq_error_iff _ _ _).mpr answered⟩
  · intro fault failed call member
    rcases List.mem_append.mp member with written | made
    · exact isMessage_of_isWrite (writes call written)
    · exact ends.untold fault ((map_eq_error_iff _ _ _).mp failed) call made
  · intro error failed
    rcases ends.raised error ((map_eq_error_iff _ _ _).mp failed)
      with unopened | ⟨failure, found, surface⟩
    · exact .unopened opens unopened
    · exact .failed (same.trans found) surface

theorem isSettled_of_opens {query : Query} {token : Option (η → Bool)}
    (there : session.seats[number]? = some seat)
    (opens : Opens host session.slot seat event query token) :
    IsSettled host session number event seat := by
  obtain ⟨before, writes, comes⟩ := comes_of_opens there opens
  exact ⟨_, _, _, comes.map fun _ => (), settles_of_opens showing opens writes⟩

/-- A step that serves a request comes to calls that settle what it reports. -/
theorem isSettled_of_demand {demand : Demand η} (there : session.seats[number]? = some seat)
    (asked : event.demand? = some demand) :
    IsSettled host session number event seat := by
  by_cases rejected : ∃ error,
    Rejects host session.settings seat.host demand.symbol demand.project error
  · obtain ⟨error, rejects⟩ := rejected
    exact isSettled_of_rejects there asked rejects
  rcases demand with ⟨symbol, project, hint, token⟩
  have given : IsGiven symbol ∧ IsGiven project :=
    Classical.byContradiction fun missing => rejected ⟨_, .missing missing⟩
  obtain ⟨⟨symbol, rfl, givenSymbol⟩, ⟨project, rfl, givenProject⟩⟩ := given
  by_cases here : Path.isOpenAmong project (host.roots seat.host)
  · exact isSettled_of_opens showing there (.asked asked givenSymbol givenProject here)
  rcases holds : session.settings with fault | inForce
  · have comes : Comes host session number event seat [] (.error fault : Except Fault Unit)
        seat.host := comes_of_refused there asked givenSymbol givenProject holds
    refine ⟨_, _, _, comes, settles_of_no_call ?_⟩
    rintro error rfl
    exact absurd ⟨error, .refused ⟨_, rfl, givenSymbol⟩ ⟨_, rfl, givenProject⟩ holds⟩ rejected
  · have allowed : inForce.notOpen ≠ .error := by
      intro forbids
      exact rejected ⟨_, .forbidden ⟨_, rfl, givenSymbol⟩ ⟨_, rfl, givenProject⟩ holds rfl
        (fun ⟨path, same, isOpen⟩ => here (Option.some.inj same ▸ isOpen)) forbids⟩
    have comes := comes_of_handsOver there asked givenSymbol givenProject holds here allowed
    exact ⟨_, _, _, comes.map fun _ => (), settles_of_handsOver _ _ _⟩

/-- Every step comes to calls that settle what it reports. -/
theorem isSettled (there : session.seats[number]? = some seat) (event : Event η) :
    IsSettled host session number event seat := by
  rcases asked : event.demand? with _ | demand
  case some => exact isSettled_of_demand showing there asked
  by_cases look : event.isLook
  case neg =>
    obtain ⟨made, writes, comes⟩ := comes_of_no_demand host there
      (eq_false_of_ne_true look) asked
    exact ⟨made, _, _, comes, settles_of_writes writes⟩
  by_cases taken : ∃ request, PendingRequest.ofRecord? session.slot = some request ∧
      Path.isOpenAmong request.project (host.roots seat.host)
  · obtain ⟨request, found, here⟩ := taken
    exact isSettled_of_opens showing there (.taken look found here)
  · obtain ⟨made, writes, comes⟩ := comes_of_rest there look
      fun request found here => taken ⟨request, found, here⟩
    exact ⟨made, _, _, comes, settles_of_writes writes⟩

theorem aftermath_of_request {α : Type} (state : η) (error : RequestError) :
    aftermath host state (.error (.request error) : Except Fault α) =
      { host := ((host.showError error.message).start state).2
        calls := [.showError error.message]
        reported := some error } := by
  have shown := showing error.message state
  unfold aftermath
  dsimp only
  rcases course : (host.showError error.message).start state with ⟨fault | done, after⟩
  · rw [course] at shown
    nomatch shown
  · rfl

theorem failure?_aftermath {α : Type} (start state : η) (answer : Except Fault α) :
    host.failure? start (aftermath host state answer).calls = none := by
  rcases aftermath_calls host state answer with none | ⟨message, told⟩
  · rw [none]
    rfl
  · have shown := showing message start
    rw [told, Host.failure?, Host.finish, Act.finish]
    rcases course : (host.showError message).start start with ⟨fault | done, after⟩
    · rw [course] at shown
      cases shown
    · rfl

section Settled

variable {made : List Call} {answer : Except Fault Unit} {state : η}

/-- What a step comes to is surfaced when it is an error of a request. -/
theorem surfaces_of_comes {α : Type} {answer : Except Fault α}
    (comes : Comes host session number event seat made answer state) {error : RequestError}
    (failed : answer = .error (.request error))
    (untold : ∀ call ∈ made, call.isMessage = false) :
    Surfaces number event error (session.step host number event) := by
  subst failed
  have calls := comes.calls
  obtain ⟨after, left, remembered, answered⟩ := comes.seat
  rw [aftermath_of_request showing] at calls remembered answered
  constructor
  · exact ⟨made, calls, untold⟩
  · exact ⟨after, left, remembered, answered _ rfl rfl⟩

/-- The call that fails in a step is the last one before the report. -/
theorem failure_of_comes (comes : Comes host session number event seat made answer state)
    (settles : Settles host session seat event made answer) {failure : Failure}
    {error : RequestError}
    (found : host.failure? seat.host (session.step host number event).1.calls = some failure)
    (surface : failure.call.surface failure.fault = .request error) :
    answer = .error (.request error) ∧ failure.later = [.showError error.message] := by
  rw [comes.calls, Host.failure?_append] at found
  rcases first : host.failure? seat.host made with _ | last
  · rw [first] at found
    nomatch (failure?_aftermath showing _ _ _).symm.trans found
  · rw [first] at found
    obtain rfl := Option.some.inj found
    obtain ⟨final, failed⟩ := settles.last last first
    rw [surface] at failed
    refine ⟨failed, ?_⟩
    dsimp only
    rw [final, failed, aftermath_of_request showing]
    rfl

end Settled

/-- In every step, an error that arises is surfaced, and nothing else changes the last error. -/
theorem surfacesErrors (there : session.seats[number]? = some seat) (event : Event η) :
    SurfacesErrors host session number event seat := by
  obtain ⟨made, answer, state, comes, settles⟩ := isSettled showing there event
  constructor
  case surfaces =>
    intro error arises
    cases arises with
    | rejected asked rejects =>
        exact surfaces_of_comes showing (comes_of_rejects there asked rejects) rfl
          (List.forall_mem_nil _)
    | @unopened query token _ opens unopened =>
        obtain ⟨before, writes, opened⟩ := comes_of_opens there opens
        have failed := Bench.opening_of_unopened token unopened
        have ends := Bench.endsAtFailure_opening session.settings seat.host query token showing
        apply surfaces_of_comes showing opened failed
        intro call member
        rcases List.mem_append.mp member with written | called
        · exact isMessage_of_isWrite (writes call written)
        · exact ends.untold _ failed call called
    | failed found surface =>
        obtain ⟨failed, -⟩ := failure_of_comes showing comes settles found surface
        exact surfaces_of_comes showing comes failed (settles.untold _ failed)
  case last =>
    intro failure error found surface
    exact (failure_of_comes showing comes settles found surface).2
  case kept =>
    intro none
    obtain ⟨after, left, remembered, -⟩ := comes.seat
    refine ⟨after, left, ?_⟩
    rw [remembered, reported_aftermath]
    · rfl
    · intro error failed
      refine none error ?_
      rw [comes.calls]
      exact (settles.arises error failed).append _
  case outcome =>
    intro query token outcome opens found
    obtain ⟨before, writes, opened⟩ := comes_of_opens there opens
    obtain ⟨after, left, remembered, -⟩ := opened.seat
    refine ⟨after, left, ?_⟩
    rw [remembered, found]
    rfl

end Reporting

/-- An error arises in an event at a seat of a session. -/
def ArisesAt (host : Host η) (session : Session η) (number : Nat) (event : Event η)
    (error : RequestError) : Prop :=
  ∃ seat, session.seats[number]? = some seat ∧
    Arises host session seat event (session.step host number event).1.calls error

/-- No error arises at a seat in a run. -/
def NoneArises (host : Host η) (session : Session η) (number : Nat)
    (events : List (Nat × Event η)) : Prop :=
  ∀ before event after error, events = before ++ (number, event) :: after →
    ¬ ArisesAt host (session.run host before).2 number event error

/-- What is said of a whole run at a seat: its last error is the latest one that arose there, or
the one from before the run. -/
def RemembersLatest (host : Host η) (session : Session η) (number : Nat) (seat : Seat η)
    (events : List (Nat × Event η)) : Prop :=
  ∃ last, (session.run host events).2.seats[number]? = some last ∧
    ((∃ before event after error, events = before ++ (number, event) :: after ∧
        ArisesAt host (session.run host before).2 number event error ∧
        NoneArises host ((session.run host before).2.step host number event).2 number after ∧
        last.lastError = some error) ∨
      (NoneArises host session number events ∧ last.lastError = seat.lastError))

theorem noneArises_cons {entry : Nat × Event η} {rest : List (Nat × Event η)}
    (first : ∀ error, entry.1 = number → ¬ ArisesAt host session number entry.2 error)
    (others : NoneArises host (session.step host entry.1 entry.2).2 number rest) :
    NoneArises host session number (entry :: rest) := by
  intro before event after error split
  cases before with
  | nil =>
      obtain ⟨rfl, -⟩ := List.cons.inj split
      exact first error rfl
  | cons entry before =>
      obtain ⟨rfl, later⟩ := List.cons.inj split
      exact others before event after error later

/-- A step leaves a seat with the error that arose there, or with its last error as it was. -/
theorem exists_remembered
    (showing : ∀ message state, ((host.showError message).start state).1 = .ok ())
    (there : session.seats[number]? = some seat) (other : Nat) (event : Event η) :
    ∃ next, (session.step host other event).2.seats[number]? = some next ∧
      ((other = number ∧ ∃ error, ArisesAt host session number event error ∧
          next.lastError = some error) ∨
        ((∀ error, other = number → ¬ ArisesAt host session number event error) ∧
          next.lastError = seat.lastError)) := by
  by_cases same : other = number
  case neg =>
    have kept : (session.step host other event).2.seats[number]? = some seat :=
      (seats_step_of_ne same event).trans there
    exact ⟨seat, kept, .inr ⟨fun _ here => absurd here same, rfl⟩⟩
  subst same
  have surfaces := surfacesErrors showing there event
  by_cases arises : ∃ error, ArisesAt host session other event error
  · obtain ⟨error, arising⟩ := arises
    obtain ⟨same, here, arises⟩ := arising
    obtain rfl := Option.some.inj (there.symm.trans here)
    obtain ⟨next, left, remembered, -⟩ := (surfaces.surfaces error arises).seat
    exact ⟨next, left, .inl ⟨rfl, error, ⟨seat, there, arises⟩, remembered⟩⟩
  · obtain ⟨next, left, unchanged⟩ := surfaces.kept
      fun error arising => arises ⟨error, seat, there, arising⟩
    exact ⟨next, left, .inr ⟨fun error _ arising => arises ⟨error, arising⟩, unchanged⟩⟩

/-- Every run leaves a seat with the latest error that arose there. -/
theorem remembersLatest
    (showing : ∀ message state, ((host.showError message).start state).1 = .ok ())
    (there : session.seats[number]? = some seat) (events : List (Nat × Event η)) :
    RemembersLatest host session number seat events := by
  induction events generalizing session seat with
  | nil =>
      refine ⟨seat, there, .inr ⟨?_, rfl⟩⟩
      intro before event after error split
      cases before with
      | nil => nomatch split
      | cons entry before => nomatch split
  | cons entry rest ih =>
      obtain ⟨other, event⟩ := entry
      obtain ⟨next, left, first⟩ := exists_remembered showing there other event
      obtain ⟨last, ends, later | ⟨none, remembered⟩⟩ := ih left
      · obtain ⟨before, latest, after, error, rfl, arises, none, remembered⟩ := later
        exact ⟨last, ends,
          .inl ⟨(other, event) :: before, latest, after, error, rfl, arises, none, remembered⟩⟩
      -- No error arises after the first step, so the last error is the one it has left.
      · refine ⟨last, ends, ?_⟩
        rcases first with ⟨rfl, error, arises, surfaced⟩ | ⟨quiet, unchanged⟩
        · exact .inl ⟨[], event, rest, error, rfl, arises, none, remembered.trans surfaced⟩
        · exact .inr ⟨noneArises_cons quiet none, remembered.trans unchanged⟩

/-- Over every session, whatever its hosts do but for failing to show a message: an error of a
request that arises in an event, wherever it does, is surfaced once, by the last call of the event,
and a seat remembers the latest such error and nothing else. -/
theorem errors_surface_once
    (showing : ∀ message state, ((host.showError message).start state).1 = .ok ()) :
    (∀ session number event seat, session.seats[number]? = some seat →
      SurfacesErrors host session number event seat) ∧
    ∀ session events number seat, session.seats[number]? = some seat →
      RemembersLatest host session number seat events :=
  ⟨fun _ _ event _ there => surfacesErrors showing there event,
    fun _ events _ _ there => remembersLatest showing there events⟩

/-- An index that fails without a word is reported under the name of its failure. -/
theorem errors_surface_once_of_nameless_failure :
    let host : Host Script :=
      { Script.host with query := fun _ => throw (.reported "OSError" "") }
    let session : Session Script :=
      { seats := [{ host := { roots := ["/p"] } }], settings := .ok Script.settings }
    let event : Event Script := .request (some "f") (some "/p") none none
    Surfaces 0 event (.indexFailed "OSError") (session.step host 0 event) := by
  intro host session event
  have showing : ∀ message state, ((host.showError message).start state).1 = .ok () :=
    fun _ _ => rfl
  have found : host.failure? { roots := ["/p"] } (session.step host 0 event).1.calls =
      some ⟨.query "#f", .reported "OSError" "", [.showError "OSError"]⟩ := by
    decide +kernel
  exact ((errors_surface_once showing).1 session 0 event _ rfl).surfaces _ (.failed found rfl)

end Session

end SymbolJump
