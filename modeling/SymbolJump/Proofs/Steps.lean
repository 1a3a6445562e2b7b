/-
# Steps up to their reports

A step at a seat makes some calls, and then perhaps reports an error. What it comes to before the
report is one of few things: a request is rejected, handed over or opens a symbol, a look opens a
symbol or leaves the slot alone, and any other event has nothing to report. Each is described in
the same terms, by the calls made and the answer that is then reported on, so that what is shown
of reports need not look at events again.
-/
import SymbolJump.Proofs.Dispatch
import SymbolJump.Proofs.Failures
import SymbolJump.Proofs.Handover

namespace SymbolJump

open Act Opener

variable {η : Type}

/-- When no fault escapes, a fault is answered in another way. -/
theorem Opener.Aftermath.answer_of_error {α : Type} {rest : Aftermath η}
    (quiet : rest.escaped = none) (fault : Fault) (otherwise : α) :
    rest.answer (.error fault) otherwise = .ok otherwise := by
  unfold Aftermath.answer
  rw [quiet]

/-- A request as an event makes it. -/
structure Demand (η : Type) where
  symbol : Option String
  project : Option String
  hint : Option String
  token : Option (η → Bool)

/-- The request that an event makes, directly or as a URI. -/
def Event.demand? : Event η → Option (Demand η)
  | .request symbol project hint token => some ⟨symbol, project, hint, token⟩
  | .uri text =>
      match OpenRequest.ofUri text with
      | .ok read => some ⟨read.symbol, read.project, read.kind, none⟩
      | .error _ => none
  | _ => none

/-- What an event is answered with when it comes to nothing: a request has no outcome, and a look
at the slot tells the standing. -/
def Event.unanswered (event : Event η) (standing : Standing) : Answer :=
  if event.isLook then .standing standing else .outcome none

namespace Session

/-- An event makes an instance open a symbol of its own project: one that is asked for, or one that
is taken from the slot. -/
inductive Opens (host : Host η) (slot : Json) (seat : Seat η) (event : Event η) :
    Query → Option (η → Bool) → Prop
  | asked {symbol project : String} {hint : Option String} {token : Option (η → Bool)}
      (demand : event.demand? = some ⟨some symbol, some project, hint, token⟩)
      (givenSymbol : symbol ≠ "") (givenProject : project ≠ "")
      (here : Path.isOpenAmong project (host.roots seat.host)) :
      Opens host slot seat event ⟨symbol, hint⟩ token
  | taken {request : PendingRequest} (look : event.isLook)
      (found : PendingRequest.ofRecord? slot = some request)
      (here : Path.isOpenAmong request.project (host.roots seat.host)) :
      Opens host slot seat event ⟨request.symbol, request.hint⟩ none

/-- The course of a step as far as its report goes: the calls made before it, and what is then
reported. -/
structure Comes {α : Type} (host : Host η) (session : Session η) (number : Nat) (event : Event η)
    (seat : Seat η) (made : List Call) (answer : Except Fault α) (state : η) : Prop where
  calls : (session.step host number event).1.calls = made ++ (aftermath host state answer).calls
  seat : ∃ after, (session.step host number event).2.seats[number]? = some after ∧
    after.lastError = (aftermath host state answer).reported.or seat.lastError ∧
    ∀ fault, answer = .error fault → (aftermath host state answer).escaped = none →
      (session.step host number event).1.answer = .ok (event.unanswered after.standing)

variable {host : Host η} {session : Session η} {number : Nat} {event : Event η} {seat : Seat η}

section Requests

variable {demand : Demand η}

/-- The window in which an event is handled, after some log lines. -/
def windowWith (session : Session η) (seat : Seat η) (lines : List LogLine) : Window (Bench η) :=
  { session.windowOf seat with world := { (session.windowOf seat).world with lines } }

theorem step_of_demand (there : session.seats[number]? = some seat)
    (asked : event.demand? = some demand) :
    ∃ lines, session.step host number event =
      let course := (handleRequest (Bench.environment host) demand.symbol demand.project
        demand.hint (demand.token.map fun cancelled bench => cancelled bench.host)).start
          (session.windowWith seat lines)
      ({ answer := course.1.map .outcome, calls := course.2.world.calls
         lines := course.2.world.lines },
       { seats := session.seats.set number (seatOf course.2)
         values := course.2.world.values
         settings := course.2.world.settings }) := by
  rw [step_of_seat host event there]
  cases event with
  | request symbol project hint token =>
      obtain rfl := Option.some.inj asked
      refine ⟨[], ?_⟩
      rw [respond, start_bind_pure]
      rfl
  | uri text =>
      rw [Event.demand?] at asked
      rcases read : OpenRequest.ofUri text with error | request
      · rw [read] at asked
        cases asked
      · rw [read] at asked
        obtain rfl := Option.some.inj asked
        obtain ⟨lines, course⟩ := start_handleUri_of_read host (session.windowOf seat) read
        refine ⟨lines, ?_⟩
        rw [respond, start_bind_pure, course]
        rfl
  | _ => cases asked

theorem isLook_of_demand (asked : event.demand? = some demand) : event.isLook = false := by
  cases event with
  | startup => nomatch asked
  | focus => nomatch asked
  | _ => rfl

/-- A request comes to what its serving comes to. -/
theorem comes_of_demand {α : Type} (there : session.seats[number]? = some seat)
    (asked : event.demand? = some demand) {made : List Call} {answer : Except Fault α} {state : η}
    (course : ∀ lines, ∃ served more after,
      (handleRequest (Bench.environment host) demand.symbol demand.project demand.hint
          (demand.token.map fun cancelled bench => cancelled bench.host)).start
            (session.windowWith seat lines) =
        ((aftermath host state answer).answer served none,
          (aftermath host state answer).leave more after) ∧
      after.world.calls = made ∧ after.lastError = seat.lastError ∧
      ∀ fault, answer = .error fault → served = .error fault) :
    Comes host session number event seat made answer state := by
  obtain ⟨lines, step⟩ := step_of_demand there asked
  obtain ⟨served, more, after, handled, rfl, same, faults⟩ := course lines
  rw [handled] at step
  constructor
  · rw [step]
    rfl
  · rw [step]
    refine ⟨_, seats_set_self there _, ?_, ?_⟩
    · rw [← same]
      rfl
    · intro fault failed quiet
      obtain rfl := faults fault failed
      rw [Event.unanswered, isLook_of_demand asked]
      exact congrArg (Except.map Answer.outcome) (Aftermath.answer_of_error quiet fault none)

end Requests

/-- A look at the slot comes to what draining it comes to. -/
theorem comes_of_look {α : Type} (there : session.seats[number]? = some seat)
    (look : event.isLook) {answer : Except Fault α} {state : η} {served : Except Fault Standing}
    {otherwise : Standing} {lines : List LogLine} {after : Window (Bench η)} {made : List Call}
    (course : (drain (Bench.environment host)).start (session.windowOf seat) =
      ((aftermath host state answer).answer served otherwise,
        (aftermath host state answer).leave lines after))
    (calls : after.world.calls = made) (standing : after.standing = otherwise)
    (same : after.lastError = seat.lastError)
    (faults : ∀ fault, answer = .error fault → served = .error fault) :
    Comes host session number event seat made answer state := by
  subst calls standing
  have step := step_of_seat host event there
  rw [start_respond_of_look look, course] at step
  constructor
  · rw [step]
    rfl
  · rw [step]
    refine ⟨_, seats_set_self there _, ?_, ?_⟩
    · rw [← same]
      rfl
    · intro fault failed quiet
      obtain rfl := faults fault failed
      rw [Event.unanswered, look]
      exact congrArg (Except.map Answer.standing) (Aftermath.answer_of_error quiet fault _)

theorem Comes.map {α β : Type} {made : List Call} {answer : Except Fault α} {state : η}
    (comes : Comes host session number event seat made answer state) (f : α → β) :
    Comes host session number event seat made (answer.map f) state := by
  constructor
  · rw [aftermath_map]
    exact comes.calls
  · rw [aftermath_map]
    obtain ⟨after, left, error, answered⟩ := comes.seat
    refine ⟨after, left, error, ?_⟩
    intro fault failed
    exact answered fault ((map_eq_error_iff answer f fault).mp failed)

theorem aftermath_error {α β : Type} (host : Host η) (state : η) (fault : Fault) :
    aftermath host state (.error fault : Except Fault α) =
      aftermath host state (.error fault : Except Fault β) := by
  cases fault <;> rfl

/-- A request under settings that are refused comes to their fault. -/
theorem comes_of_refused {α : Type} {symbol project : String} {hint : Option String}
    {token : Option (η → Bool)} {fault : Fault} (there : session.seats[number]? = some seat)
    (asked : event.demand? = some ⟨some symbol, some project, hint, token⟩)
    (givenSymbol : symbol ≠ "") (givenProject : project ≠ "")
    (refused : session.settings = .error fault) :
    Comes host session number event seat [] (.error fault : Except Fault α) seat.host := by
  apply comes_of_demand there asked
  intro lines
  obtain ⟨more, course⟩ := start_handleRequest_of_refused host (session.windowWith seat lines)
    hint (token.map fun cancelled bench => cancelled bench.host) givenSymbol givenProject refused
  rw [aftermath_error] at course
  exact ⟨_, more, _, course, rfl, rfl, fun _ same => congrArg _ (Except.error.inj same)⟩

/-- A rejected request comes to its error. -/
theorem comes_of_rejects {demand : Demand η} {error : RequestError}
    (there : session.seats[number]? = some seat) (asked : event.demand? = some demand)
    (rejects : Rejects host session.settings seat.host demand.symbol demand.project error) :
    Comes host session number event seat []
      (.error (.request error) : Except Fault (Option Outcome)) seat.host := by
  rcases demand with ⟨symbol, project, hint, token⟩
  cases rejects with
  | missing missing =>
      apply comes_of_demand there asked
      intro lines
      obtain ⟨more, course⟩ := start_handleRequest_of_missing host
        (session.windowWith seat lines) hint (token.map fun cancelled bench => cancelled bench.host)
        missing
      exact ⟨_, more, _, course, rfl, rfl, fun _ => id⟩
  | refused givenSymbol givenProject refused =>
      obtain ⟨name, rfl, someName⟩ := givenSymbol
      obtain ⟨path, rfl, somePath⟩ := givenProject
      exact comes_of_refused there asked someName somePath refused
  | forbidden givenSymbol givenProject holds named elsewhere forbids =>
      obtain ⟨name, rfl, someName⟩ := givenSymbol
      obtain ⟨path, rfl, somePath⟩ := givenProject
      obtain rfl := Option.some.inj named
      apply comes_of_demand there asked
      intro lines
      obtain ⟨more, course⟩ := start_handleRequest_of_forbidden host
        (session.windowWith seat lines) hint (token.map fun cancelled bench => cancelled bench.host)
        someName somePath holds (fun here => elsewhere ⟨_, rfl, here⟩) forbids
      exact ⟨_, more, _, course, rfl, rfl, fun _ => id⟩

/-- A request whose symbol is opened here comes to what opening it alone comes to. -/
theorem comes_of_asked {symbol project : String} {hint : Option String}
    {token : Option (η → Bool)} (there : session.seats[number]? = some seat)
    (asked : event.demand? = some ⟨some symbol, some project, hint, token⟩)
    (givenSymbol : symbol ≠ "") (givenProject : project ≠ "")
    (here : Path.isOpenAmong project (host.roots seat.host)) :
    let alone := Bench.opening host session.settings seat.host ⟨symbol, hint⟩ token
    Comes host session number event seat alone.2.calls alone.1 alone.2.host := by
  rcases settings : session.settings with fault | inForce
  · rw [Bench.opening_of_refused]
    exact comes_of_refused there asked givenSymbol givenProject settings
  · apply comes_of_demand there asked
    intro lines
    obtain ⟨more, course⟩ := start_handleRequest_of_here host (session.windowWith seat lines)
      hint token givenSymbol givenProject settings here
    refine ⟨_, more, _, course, rfl, rfl, ?_⟩
    intro fault failed
    exact (map_eq_error_iff _ _ fault).mpr failed

/-- A look that takes a request out comes, after the deletion, to what opening the symbol alone
comes to. -/
theorem comes_of_taken {request : PendingRequest} (there : session.seats[number]? = some seat)
    (look : event.isLook) (found : PendingRequest.ofRecord? session.slot = some request)
    (here : Path.isOpenAmong request.project (host.roots seat.host)) :
    let alone := Bench.opening host session.settings seat.host ⟨request.symbol, request.hint⟩ none
    Comes host session number event seat (.put Slot.key .null :: alone.2.calls) alone.1
      alone.2.host := by
  obtain ⟨more, course⟩ := start_drain_of_here host (session.windowOf seat) found here
  apply comes_of_look there look course rfl rfl rfl
  intro fault failed
  exact (map_eq_error_iff _ _ fault).mpr failed

/-- An event that opens a symbol comes to what opening it alone comes to, perhaps after a write. -/
theorem comes_of_opens {query : Query} {token : Option (η → Bool)}
    (there : session.seats[number]? = some seat)
    (opens : Opens host session.slot seat event query token) :
    let alone := Bench.opening host session.settings seat.host query token
    ∃ before, (∀ call ∈ before, call.isWrite) ∧
      Comes host session number event seat (before ++ alone.2.calls) alone.1 alone.2.host := by
  cases opens with
  | asked demand givenSymbol givenProject here =>
      refine ⟨[], List.forall_mem_nil _, ?_⟩
      exact comes_of_asked there demand givenSymbol givenProject here
  | taken look found here =>
      refine ⟨[.put Slot.key .null], ?_, comes_of_taken there look found here⟩
      exact List.forall_mem_singleton.mpr rfl

/-- A request that is handed over comes to what opening its project comes to. -/
theorem comes_of_handsOver {symbol project : String} {hint : Option String}
    {token : Option (η → Bool)} {inForce : Settings}
    (there : session.seats[number]? = some seat)
    (asked : event.demand? = some ⟨some symbol, some project, hint, token⟩)
    (givenSymbol : symbol ≠ "") (givenProject : project ≠ "")
    (holds : session.settings = .ok inForce)
    (elsewhere : ¬ Path.isOpenAmong project (host.roots seat.host))
    (allowed : inForce.notOpen ≠ .error) :
    let newWindow := inForce.notOpen == .newWindow
    let opened := (host.openProject project newWindow).start seat.host
    Comes host session number event seat
      [.put Slot.key (PendingRequest.toRecord ⟨symbol, project, hint⟩),
        .openProject project newWindow] opened.1 opened.2 := by
  apply comes_of_demand there asked
  intro lines
  obtain ⟨more, course⟩ := start_handleRequest_of_elsewhere host (session.windowWith seat lines)
    hint (token.map fun cancelled bench => cancelled bench.host) givenSymbol givenProject holds
    elsewhere allowed
  refine ⟨_, more, _, course, rfl, rfl, ?_⟩
  intro fault failed
  exact (map_eq_error_iff _ _ fault).mpr failed

/-- A step that has nothing to report. -/
theorem comes_of_quiet {made : List Call} {report : Report} {next : Session η} {after : Seat η}
    (there : session.seats[number]? = some seat)
    (step : session.step host number event = (report, next)) (calls : report.calls = made)
    (seats : next.seats = session.seats.set number after)
    (same : after.lastError = seat.lastError) :
    Comes host session number event seat made (.ok () : Except Fault Unit) seat.host := by
  constructor
  · rw [step]
    exact calls.trans (List.append_nil made).symm
  · refine ⟨after, ?_, same, nofun⟩
    rw [step, seats]
    exact seats_set_self there after

/-- A look that takes no request out makes no call but a write, and has nothing to report. -/
theorem comes_of_rest (there : session.seats[number]? = some seat) (look : event.isLook)
    (rests : ∀ request, PendingRequest.ofRecord? session.slot = some request →
      ¬ Path.isOpenAmong request.project (host.roots seat.host)) :
    ∃ made, (∀ call ∈ made, call.isWrite) ∧
      Comes host session number event seat made (.ok () : Except Fault Unit) seat.host := by
  have step := step_of_seat host event there
  rw [start_respond_of_look look] at step
  by_cases empty : session.slot = .null
  · rw [start_drain_of_null host (session.windowOf seat) empty] at step
    exact ⟨[], List.forall_mem_nil _, comes_of_quiet there step rfl rfl rfl⟩
  rcases found : PendingRequest.ofRecord? session.slot with _ | request
  · obtain ⟨lines, course⟩ := start_drain_of_malformed host (session.windowOf seat) empty found
    rw [course] at step
    refine ⟨[.put Slot.key .null], ?_, comes_of_quiet there step rfl rfl rfl⟩
    exact List.forall_mem_singleton.mpr rfl
  · obtain ⟨lines, course⟩ := start_drain_of_elsewhere host (session.windowOf seat) found
      (rests request found)
    rw [course] at step
    exact ⟨[], List.forall_mem_nil _, comes_of_quiet there step rfl rfl rfl⟩

/-- An event that is no look and makes no request has nothing to report. -/
theorem comes_of_no_demand (host : Host η) (there : session.seats[number]? = some seat)
    (noLook : event.isLook = false) (noDemand : event.demand? = none) :
    ∃ made, (∀ call ∈ made, call.isWrite) ∧
      Comes host session number event seat made (.ok () : Except Fault Unit) seat.host := by
  have step := step_of_seat host event there
  cases event with
  | request symbol project hint token => cases noDemand
  | startup => cases noLook
  | focus => cases noLook
  | uri text =>
      rw [Event.demand?] at noDemand
      rcases read : OpenRequest.ofUri text with error | request
      · obtain ⟨lines, course⟩ := start_handleUri_of_refused host (session.windowOf seat) read
        rw [respond, start_bind_pure, course] at step
        exact ⟨[], List.forall_mem_nil _, comes_of_quiet there step rfl rfl rfl⟩
      · rw [read] at noDemand
        cases noDemand
  | deposit record =>
      refine ⟨[.put Slot.key record], ?_, comes_of_quiet there step rfl rfl rfl⟩
      exact List.forall_mem_singleton.mpr rfl
  | configure settings =>
      exact ⟨[], List.forall_mem_nil _, comes_of_quiet there step rfl rfl rfl⟩
  | revise change =>
      exact ⟨[], List.forall_mem_nil _, comes_of_quiet there step rfl rfl rfl⟩

end Session

end SymbolJump
