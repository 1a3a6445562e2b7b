/-
# The detour through the slot

A request for a project that is open in another instance takes a detour: it is saved, the
instance that has the project open finds it there, deletes it and resumes it. That instance then
does what it would have done had the request been made there, whatever its host and its settings
are. On the way an empty hint is lost, and a query with an empty hint asks the same as one without
a hint.
-/
import SymbolJump.Proofs.Slot

namespace SymbolJump

open Act Opener

variable {η : Type} {host : Host η}

namespace PendingRequest

theorem filledText?_of_ne {text : String} (given : text ≠ "") :
    filledText? (.text text) = some text := by
  unfold filledText?
  split
  · next empty => exact absurd (Json.text.inj empty) given
  · next same => rw [Json.text.inj same]
  · next other => exact absurd rfl (other text)

/-- A request is read back from its record as it went in, but for an empty hint, which is
none. -/
theorem ofRecord?_toRecord {symbol project : String} (hint : Option String)
    (givenSymbol : symbol ≠ "") (givenProject : project ≠ "") :
    ofRecord? (toRecord ⟨symbol, project, hint⟩) =
      some ⟨symbol, project, hint.filter (· ≠ "")⟩ := by
  unfold ofRecord? toRecord
  simp only [Json.asObject?, Fields.getOrNull, Fields.get?_cons, Option.bind_eq_bind,
    Option.bind_some, Option.getD_some, if_pos, String.reduceEq, if_false,
    filledText?_of_ne givenSymbol, filledText?_of_ne givenProject]
  rcases hint with _ | hint
  · rfl
  by_cases empty : hint = ""
  · subst empty
    rfl
  · simp [Json.ofText?, Option.filter, empty]

/-- What is lost of a request on the way is not asked for. -/
theorem alike_filter (symbol : String) (hint : Option String) :
    Query.Alike ⟨symbol, hint.filter (· ≠ "")⟩ ⟨symbol, hint⟩ := by
  refine ⟨rfl, ?_⟩
  rcases hint with _ | hint
  · rfl
  by_cases empty : hint = ""
  · subst empty
    rfl
  · simp [Option.filter, empty]

end PendingRequest

theorem Opener.Aftermath.answer_eq_error_iff {α : Type} (rest : Aftermath η)
    (answer : Except Fault α) (otherwise : α) (fault : Fault) :
    rest.answer answer otherwise = .error fault ↔ rest.escaped = some fault := by
  unfold Aftermath.answer
  split
  · next escaped => simp [escaped]
  · next none => simp [none]
  · next none => simp [none]

theorem map_eq_error_iff {α β : Type} (answer : Except Fault α) (f : α → β) (fault : Fault) :
    answer.map f = .error fault ↔ answer = .error fault := by
  cases answer <;> simp [Except.map]

namespace Session

variable {session : Session η} {number : Nat} {seat : Seat η}

/-- What an instance does to serve a query: its calls, the fault that escapes, if any, and the
host and the last error it is left with. -/
structure Service (η : Type) where
  calls : List Call
  escaped : Option Fault
  host : η
  lastError : Option RequestError

/-- The service of a query at a seat. -/
def service (host : Host η) (settings : Except Fault Settings) (seat : Seat η) (query : Query) :
    Service η :=
  let alone := Bench.opening host settings seat.host query none
  let rest := aftermath host alone.2.host alone.1
  { calls := alone.2.calls ++ rest.calls
    escaped := rest.escaped
    host := rest.host
    lastError := rest.reported.or seat.lastError }

/-- A step that leaves a seat as after a service, with some calls before it. -/
structure Serves (service : Service η) (before : List Call) (number : Nat)
    (course : Report × Session η) : Prop where
  calls : course.1.calls = before ++ service.calls
  escaped : ∀ fault, course.1.answer = .error fault ↔ service.escaped = some fault
  seat : ∃ standing, course.2.seats[number]? = some
    { host := service.host, standing, lastError := service.lastError }

/-- Queries that ask the same are served in the same way. -/
theorem service_alike (settings : Except Fault Settings) (seat : Seat η) {query other : Query}
    (same : query.Alike other) :
    service host settings seat query = service host settings seat other := by
  obtain ⟨answers, hosts, calls⟩ := Bench.opening_alike host settings seat.host same
  unfold service
  dsimp only
  rw [answers, hosts, calls]

theorem seats_set_self {seats : List (Seat η)} (there : seats[number]? = some seat)
    (after : Seat η) : (seats.set number after)[number]? = some after := by
  obtain ⟨inside, -⟩ := List.getElem?_eq_some_iff.mp there
  rw [List.getElem?_set_self inside]

/-- Settings that are refused end a service before it begins. -/
theorem service_refused (fault : Fault) (seat : Seat η) (query : Query) :
    service host (.error fault) seat query =
      let rest := aftermath host seat.host (.error fault : Except Fault (Option Outcome))
      { calls := rest.calls
        escaped := rest.escaped
        host := rest.host
        lastError := rest.reported.or seat.lastError } := by
  have refused : Bench.opening host (.error fault) seat.host query none =
      (.error fault, { host := seat.host, settings := .error fault }) := by
    unfold Bench.opening openSymbol
    exact start_bind_of_error (Bench.start_loadSettings _) _
  have same : aftermath host seat.host (.error fault : Except Fault (Option Outcome)) =
      aftermath host seat.host (.error fault : Except Fault Outcome) :=
    aftermath_map host seat.host (.error fault) some
  unfold service
  rw [refused, same]
  rfl

/-- A request for a project that is open here is served here. -/
theorem serves_of_request {symbol project : String} (hint : Option String)
    (there : session.seats[number]? = some seat) (givenSymbol : symbol ≠ "")
    (givenProject : project ≠ "") (here : Path.isOpenAmong project (host.roots seat.host)) :
    Serves (service host session.settings seat ⟨symbol, hint⟩) [] number
      (session.step host number (.request (some symbol) (some project) hint none)) := by
  rw [step_of_seat host _ there, respond, start_bind_pure]
  rcases inForce : session.settings with fault | settings
  · obtain ⟨lines, refused⟩ := start_handleRequest_of_refused host
      (session.windowOf seat) hint none givenSymbol givenProject inForce
    rw [Option.map_none, refused, service_refused]
    refine ⟨rfl, fun other => ?_, seat.standing, seats_set_self there _⟩
    exact (map_eq_error_iff _ _ other).trans (Aftermath.answer_eq_error_iff _ _ _ other)
  · obtain ⟨lines, served⟩ := start_handleRequest_of_here host (session.windowOf seat)
      hint none givenSymbol givenProject inForce here
    rw [served]
    refine ⟨rfl, fun other => ?_, seat.standing, seats_set_self there _⟩
    exact (map_eq_error_iff _ _ other).trans (Aftermath.answer_eq_error_iff _ _ _ other)

/-- A look that finds a request whose project is open here deletes it and serves it. -/
theorem serves_of_look {event : Event η} {request : PendingRequest}
    (there : session.seats[number]? = some seat) (look : event.isLook)
    (found : PendingRequest.ofRecord? session.slot = some request)
    (here : Path.isOpenAmong request.project (host.roots seat.host)) :
    Serves (service host session.settings seat ⟨request.symbol, request.hint⟩)
      [.put Slot.key .null] number (session.step host number event) := by
  obtain ⟨lines, drained⟩ := start_drain_of_here host (session.windowOf seat) found here
  rw [step_of_seat host event there, start_respond_of_look look, drained]
  refine ⟨rfl, fun other => ?_, .consumed, seats_set_self there _⟩
  exact (map_eq_error_iff _ _ other).trans (Aftermath.answer_eq_error_iff _ _ _ other)

/-- A look that finds a request as it was saved serves the request that was made. -/
theorem serves_of_saved {event : Event η} {symbol project : String} {hint : Option String}
    (there : session.seats[number]? = some seat) (look : event.isLook)
    (saved : session.slot = PendingRequest.toRecord ⟨symbol, project, hint⟩)
    (givenSymbol : symbol ≠ "") (givenProject : project ≠ "")
    (here : Path.isOpenAmong project (host.roots seat.host)) :
    Serves (service host session.settings seat ⟨symbol, hint⟩) [.put Slot.key .null] number
      (session.step host number event) := by
  have read := PendingRequest.ofRecord?_toRecord hint givenSymbol givenProject
  rw [← saved] at read
  have served := serves_of_look there look read here
  rwa [service_alike session.settings seat (PendingRequest.alike_filter symbol hint)] at served

/-- A step changes no seat but its own. -/
theorem seats_step_of_ne {other : Nat} (apart : number ≠ other) (event : Event η) :
    (session.step host number event).2.seats[other]? = session.seats[other]? := by
  rcases there : session.seats[number]? with _ | seat
  · unfold step
    rw [there]
  · rw [step_of_seat host _ there]
    exact List.getElem?_set_ne apart

/-- After a change of settings all else is as before. -/
theorem step_configure (there : session.seats[number]? = some seat)
    (settings : Except Fault Settings) :
    (session.step host number (.configure settings)).2 = { session with settings } := by
  have still : session.seats.set number seat = session.seats := by
    obtain ⟨inside, rfl⟩ := List.getElem?_eq_some_iff.mp there
    exact List.set_getElem_self inside
  rw [step_of_seat host _ there]
  show ({ session with seats := session.seats.set number seat, settings } : Session η) = _
  rw [still]

/-- A request that may be handed over is in the slot as its record. -/
theorem slot_step_of_elsewhere {symbol project : String} {hint : Option String}
    {token : Option (η → Bool)} {settings : Settings}
    (there : session.seats[number]? = some seat) (inForce : session.settings = .ok settings)
    (givenSymbol : symbol ≠ "") (givenProject : project ≠ "")
    (elsewhere : ¬ Path.isOpenAmong project (host.roots seat.host))
    (allowed : settings.notOpen ≠ .error) :
    (session.step host number (.request (some symbol) (some project) hint token)).2.slot =
      PendingRequest.toRecord ⟨symbol, project, hint⟩ := by
  have made : session.move host number (.request (some symbol) (some project) hint token) =
      .write (PendingRequest.toRecord ⟨symbol, project, hint⟩) := by
    rw [move_of_seat host _ there, moveAt, inForce]
    exact if_pos ⟨givenSymbol, givenProject, elsewhere, allowed⟩
  rw [(movesSlot host session number _).slot, made]
  rfl

/-- The detour of a request through the slot is not seen where it ends. Whatever the settings
there, and whatever the host does, the instance that takes the request makes the calls of a
request made there, after it has deleted the record; the same fault escapes, if any does, and the
host and the last error are left the same. -/
theorem resumed_as_requested {rival : Session η} {asked taking : Nat} {asking resident : Seat η}
    {symbol project : String} {hint : Option String} {token : Option (η → Bool)}
    {settings : Settings} {config : Except Fault Settings} {look : Event η}
    (givenSymbol : symbol ≠ "") (givenProject : project ≠ "") (apart : asked ≠ taking)
    (there : session.seats[asked]? = some asking)
    (inForce : session.settings = .ok settings) (allowed : settings.notOpen ≠ .error)
    (elsewhere : ¬ Path.isOpenAmong project (host.roots asking.host))
    (other : session.seats[taking]? = some resident)
    (here : Path.isOpenAmong project (host.roots resident.host)) (looks : look.isLook)
    (rivalSeat : rival.seats[taking]? = some resident) (rivalSettings : rival.settings = config) :
    let saved := (session.step host asked (.request (some symbol) (some project) hint token)).2
    let found := (saved.step host taking (.configure config)).2
    let resumed := found.step host taking look
    let direct := rival.step host taking (.request (some symbol) (some project) hint none)
    resumed.1.calls = .put Slot.key .null :: direct.1.calls ∧
      (∀ fault, resumed.1.answer = .error fault ↔ direct.1.answer = .error fault) ∧
      ∃ after like, resumed.2.seats[taking]? = some after ∧ direct.2.seats[taking]? = some like ∧
        after.lastError = like.lastError ∧ after.host = like.host := by
  intro saved found resumed direct
  have savedSeat : saved.seats[taking]? = some resident :=
    (seats_step_of_ne apart _).trans other
  have configured : found = { saved with settings := config } := step_configure savedSeat config
  have slot : found.slot = PendingRequest.toRecord ⟨symbol, project, hint⟩ := by
    rw [configured]
    exact slot_step_of_elsewhere there inForce givenSymbol givenProject elsewhere allowed
  have foundSeat : found.seats[taking]? = some resident := by
    rw [configured]
    exact savedSeat
  have foundSettings : found.settings = config := by
    rw [configured]
  have looked := serves_of_saved foundSeat looks slot givenSymbol givenProject here
  rw [foundSettings] at looked
  have requested := serves_of_request hint rivalSeat givenSymbol givenProject here
  rw [rivalSettings] at requested
  obtain ⟨resumedStanding, resumedSeat⟩ := looked.seat
  obtain ⟨directStanding, directSeat⟩ := requested.seat
  refine ⟨?_, fun fault => ?_, _, _, resumedSeat, directSeat, rfl, rfl⟩
  · exact looked.calls.trans (congrArg (Call.put Slot.key .null :: ·) requested.calls.symm)
  · exact (looked.escaped fault).trans (requested.escaped fault).symm

/-- The detour with an empty hint, into an instance whose settings are refused. -/
theorem resumed_as_requested_with_empty_hint :
    let session : Session Script :=
      { seats := [{ host := { roots := ["/a"] } }, { host := { roots := ["/b"] } }]
        settings := .ok Script.settings }
    let config : Except Fault Settings := .error (.request (.badConfig .priorityNotList))
    let saved :=
      (session.step Script.host 0 (.request (some "main") (some "/b") (some "") none)).2
    let resumed := (saved.step Script.host 1 (.configure config)).2.step Script.host 1 .focus
    let direct := (session.step Script.host 1 (.configure config)).2.step Script.host 1
      (.request (some "main") (some "/b") (some "") none)
    resumed.1.calls = .put Slot.key .null :: direct.1.calls := by
  intro session config saved resumed direct
  have rivalSeat : (session.step Script.host 1 (.configure config)).2.seats[1]? =
      some { host := { roots := ["/b"] } } := rfl
  have elsewhere : ¬ Path.isOpenAmong "/b" ["/a"] := by decide +kernel
  have here : Path.isOpenAmong "/b" ["/b"] := by decide +kernel
  have allowed : NotOpenPolicy.newWindow ≠ .error := by decide
  have given : "main" ≠ "" ∧ "/b" ≠ "" := by decide
  exact (resumed_as_requested given.1 given.2 (by decide : 0 ≠ 1) rfl rfl allowed elsewhere rfl
    here rfl rivalSeat rfl).1

end Session

end SymbolJump
