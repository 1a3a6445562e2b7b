/-
# The slot over a session

Every event of a session makes one move on the register that the slot is. Which one is read off
the event, the settings in force, the content of the slot and the open roots of the instance that
the event reaches; nothing that a host does in the course of the event has a say in it. What is
shown of registers therefore holds of the slot over whole sessions, whatever the hosts do: a
request that is resumed was written after any earlier resumption, and is resumed once.
-/
import SymbolJump.Proofs.Events
import SymbolJump.Proofs.Register

namespace SymbolJump

open Act Register

variable {η : Type}

/-- Whether a call writes to the store. -/
def Call.isWrite : Call → Bool
  | .put _ _ => true
  | _ => false

/-- Whether an event makes an opener look at the slot. -/
def Event.isLook : Event η → Bool
  | .startup | .focus => true
  | _ => false

namespace Session

/-- What is in the slot; null when nothing is. -/
def slot (session : Session η) : Json :=
  session.values.getOrNull Slot.key

/-- What a request does with the slot, under the given settings and at a host in the given state:
a request with all its parts, for a project that is not open and may be opened, is saved. -/
def requestMove (host : Host η) (settings : Except Fault Settings) (state : η)
    (symbol project hint : Option String) : Move :=
  match symbol, project, settings with
  | some symbol, some project, .ok settings =>
      if symbol ≠ "" ∧ project ≠ "" ∧ ¬ Path.isOpenAmong project (host.roots state) ∧
          settings.notOpen ≠ .error then
        .write (PendingRequest.toRecord ⟨symbol, project, hint⟩)
      else .keep
  | _, _, _ => .keep

/-- What a look at the slot does with its content, at a host in the given state. -/
def lookMove (host : Host η) (state : η) (held : Json) : Move :=
  if held = .null then .keep
  else
    match PendingRequest.ofRecord? held with
    | none => .discard
    | some request =>
        if Path.isOpenAmong request.project (host.roots state) then .resume request else .keep

/-- What an event does with the slot at a seat, under the given settings and when the slot has the
given content. -/
def moveAt (host : Host η) (settings : Except Fault Settings) (held : Json) (seat : Seat η) :
    Event η → Move
  | .request symbol project hint _ => requestMove host settings seat.host symbol project hint
  | .uri text =>
      match OpenRequest.ofUri text with
      | .ok request =>
          requestMove host settings seat.host request.symbol request.project request.kind
      | .error _ => .keep
  | .startup | .focus => lookMove host seat.host held
  | .deposit record => .write record
  | .configure _ | .revise _ => .keep

/-- What an event does with the slot. -/
def move (host : Host η) (session : Session η) (number : Nat) (event : Event η) : Move :=
  match session.seats[number]? with
  | none => .keep
  | some seat => moveAt host session.settings session.slot seat event

/-- What the events of a session do with the slot, one after the other. -/
def moves (host : Host η) (session : Session η) : List (Nat × Event η) → List Move
  | [] => []
  | (number, event) :: rest =>
      session.move host number event :: moves host (session.step host number event).2 rest

/-- The calls of resuming a request: those of resolving it, and the message that a request error
ends it with. -/
def resumption (host : Host η) (session : Session η) (seat : Seat η) (request : PendingRequest) :
    List Call :=
  let alone := Bench.opening host session.settings seat.host ⟨request.symbol, request.hint⟩ none
  alone.2.calls ++ (Opener.aftermath host alone.2.host alone.1).calls

/-- What is said of one step: it makes its move on the slot, writes to the store what the move
consists of and nothing else, and resumes a request exactly when the move takes one out. -/
structure MovesSlot (host : Host η) (session : Session η) (number : Nat) (event : Event η) :
    Prop where
  slot : (session.step host number event).2.slot =
    (session.move host number event).after session.slot
  writes : (session.step host number event).1.calls.filter Call.isWrite =
    (session.move host number event).writes.map (.put Slot.key)
  /-- A request that is taken out is resumed after it was deleted, at an instance that looks at
  the slot and has its project open, and nothing else is done. -/
  resumes : ∀ request, session.move host number event = .resume request →
    ∃ seat, session.seats[number]? = some seat ∧ event.isLook ∧
      Path.isOpenAmong request.project (host.roots seat.host) ∧
      (session.step host number event).1.calls =
        .put Slot.key .null :: session.resumption host seat request
  /-- A look that takes no request out does nothing but its writes. -/
  rests : event.isLook → (∀ request, session.move host number event ≠ .resume request) →
    (session.step host number event).1.calls =
      (session.move host number event).writes.map (.put Slot.key)

variable {host : Host η} {session : Session η} {number : Nat} {seat : Seat η}

@[simp]
theorem filter_isWrite_aftermath {α : Type} (state : η) (answer : Except Fault α) :
    (Opener.aftermath host state answer).calls.filter Call.isWrite = [] := by
  rcases answer with fault | answer
  · cases fault with
    | request error =>
        rw [Opener.aftermath_calls_of_request]
        rfl
    | _ => rfl
  · rfl

@[simp]
theorem filter_isWrite_opening (settings : Except Fault Settings) (start : η) (query : Query)
    (token : Option (η → Bool)) :
    (Bench.opening host settings start query token).2.calls.filter Call.isWrite = [] := by
  refine List.filter_eq_nil_iff.mpr fun call made => ?_
  have here := Bench.isLocal_of_mem_opening made
  cases call with
  | put key value => exact absurd here nofun
  | _ => exact nofun

theorem requestMove_of_missing {settings : Except Fault Settings} {state : η}
    {symbol project hint : Option String}
    (missing : ¬ (Opener.IsGiven symbol ∧ Opener.IsGiven project)) :
    requestMove host settings state symbol project hint = .keep := by
  unfold requestMove
  split
  · next symbol project settings =>
      refine if_neg fun given => missing ⟨⟨symbol, rfl, given.1⟩, ⟨project, rfl, given.2.1⟩⟩
  · rfl

/-- A request does to the slot what its move says. -/
theorem handleRequest_moves (host : Host η) (window : Window (Bench η))
    (symbol project hint : Option String) (token : Option (η → Bool)) :
    let left := ((Opener.handleRequest (Bench.environment host) symbol project hint
      (token.map fun cancelled bench => cancelled bench.host)).start window).2.world
    let made := requestMove host window.world.settings window.world.host symbol project hint
    left.values.getOrNull Slot.key = made.after (window.world.values.getOrNull Slot.key) ∧
      left.calls.filter Call.isWrite =
        window.world.calls.filter Call.isWrite ++ made.writes.map (.put Slot.key) := by
  by_cases given : Opener.IsGiven symbol ∧ Opener.IsGiven project
  case neg =>
    obtain ⟨lines, course⟩ := Opener.start_handleRequest_of_missing host window hint
      (token.map fun cancelled bench => cancelled bench.host) given
    rw [course, requestMove_of_missing given]
    simp [Opener.Aftermath.leave, Move.after, Move.writes]
  obtain ⟨⟨symbol, rfl, givenSymbol⟩, ⟨project, rfl, givenProject⟩⟩ := given
  rcases inForce : window.world.settings with fault | settings
  · obtain ⟨lines, course⟩ := Opener.start_handleRequest_of_refused host window hint
      (token.map fun cancelled bench => cancelled bench.host) givenSymbol givenProject inForce
    rw [course]
    simp [Opener.Aftermath.leave, requestMove, Move.after, Move.writes]
  by_cases here : Path.isOpenAmong project (host.roots window.world.host)
  · obtain ⟨lines, course⟩ := Opener.start_handleRequest_of_here host window hint token
      givenSymbol givenProject inForce here
    rw [course]
    simp [Opener.Aftermath.leave, requestMove, here, Move.after, Move.writes]
  by_cases forbidden : settings.notOpen = .error
  · obtain ⟨lines, course⟩ := Opener.start_handleRequest_of_forbidden host window hint
      (token.map fun cancelled bench => cancelled bench.host)
      givenSymbol givenProject inForce here forbidden
    rw [course]
    simp [Opener.Aftermath.leave, requestMove, forbidden, Move.after, Move.writes]
  · obtain ⟨lines, course⟩ := Opener.start_handleRequest_of_elsewhere host window hint
      (token.map fun cancelled bench => cancelled bench.host)
      givenSymbol givenProject inForce here forbidden
    rw [course]
    simp [Opener.Aftermath.leave, requestMove, givenSymbol, givenProject, here, forbidden,
      Move.after, Move.writes, List.filter_cons, Call.isWrite]

/-- A URI does to the slot what its move says: that of the request in it, if it can be read. -/
theorem handleUri_moves (host : Host η) (window : Window (Bench η)) (text : String) :
    let left := ((Opener.handleUri (Bench.environment host) text).start window).2.world
    let made :=
      match OpenRequest.ofUri text with
      | .ok request => requestMove host window.world.settings window.world.host request.symbol
          request.project request.kind
      | .error _ => .keep
    left.values.getOrNull Slot.key = made.after (window.world.values.getOrNull Slot.key) ∧
      left.calls.filter Call.isWrite =
        window.world.calls.filter Call.isWrite ++ made.writes.map (.put Slot.key) := by
  rcases read : OpenRequest.ofUri text with error | request
  · obtain ⟨lines, course⟩ := Opener.start_handleUri_of_refused host window read
    rw [course]
    simp [Move.after, Move.writes]
  · obtain ⟨lines, course⟩ := Opener.start_handleUri_of_read host window read
    rw [course]
    exact handleRequest_moves host { window with world := { window.world with lines } }
      request.symbol request.project request.kind none

/-- A look at the slot does to it what its move says. -/
theorem drain_moves (host : Host η) (window : Window (Bench η)) :
    let left := ((Opener.drain (Bench.environment host)).start window).2.world
    let held := window.world.values.getOrNull Slot.key
    let made := lookMove host window.world.host held
    left.values.getOrNull Slot.key = made.after held ∧
      ((∀ request, made ≠ .resume request) →
        left.calls = window.world.calls ++ made.writes.map (.put Slot.key)) ∧
      ∀ request, made = .resume request →
        let alone := Bench.opening host window.world.settings window.world.host
          ⟨request.symbol, request.hint⟩ none
        Path.isOpenAmong request.project (host.roots window.world.host) ∧
          left.calls = window.world.calls ++ .put Slot.key .null ::
            (alone.2.calls ++ (Opener.aftermath host alone.2.host alone.1).calls) := by
  dsimp only
  by_cases empty : window.world.values.getOrNull Slot.key = .null
  · rw [Opener.start_drain_of_null host window empty, empty]
    simp [lookMove, Move.after, Move.writes]
  rcases found : PendingRequest.ofRecord? (window.world.values.getOrNull Slot.key)
    with _ | request
  · obtain ⟨lines, course⟩ := Opener.start_drain_of_malformed host window empty found
    rw [course]
    simp [lookMove, empty, found, Move.after, Move.writes]
  by_cases here : Path.isOpenAmong request.project (host.roots window.world.host)
  · obtain ⟨lines, course⟩ := Opener.start_drain_of_here host window found here
    rw [course]
    simp [lookMove, empty, found, here, Move.after, Opener.Aftermath.leave]
  · obtain ⟨lines, course⟩ := Opener.start_drain_of_elsewhere host window found here
    rw [course]
    simp [lookMove, empty, found, here, Move.after, Move.writes]

theorem move_of_seat (host : Host η) (event : Event η)
    (there : session.seats[number]? = some seat) :
    session.move host number event =
      moveAt host session.settings session.slot seat event := by
  unfold move
  rw [there]

theorem step_of_seat (host : Host η) (event : Event η)
    (there : session.seats[number]? = some seat) :
    session.step host number event =
      let course := (respond host event).start (session.windowOf seat)
      ({ answer := course.1, calls := course.2.world.calls, lines := course.2.world.lines },
       { seats := session.seats.set number (seatOf course.2)
         values := course.2.world.values
         settings := course.2.world.settings }) := by
  unfold step
  rw [there]

/-- At a seat that a session does not have, nothing happens. -/
theorem movesSlot_of_no_seat {event : Event η} (absent : session.seats[number]? = none) :
    MovesSlot host session number event := by
  have still : session.step host number event = ({ answer := .ok .done }, session) := by
    unfold step
    rw [absent]
  have kept : session.move host number event = .keep := by
    unfold move
    rw [absent]
  constructor
  · rw [still, kept]
    rfl
  · rw [still, kept]
    rfl
  · intro request taken
    rw [kept] at taken
    nomatch taken
  · intro _ _
    rw [still, kept]
    rfl

theorem requestMove_ne_resume (settings : Except Fault Settings) (state : η)
    (symbol project hint : Option String) (request : PendingRequest) :
    requestMove host settings state symbol project hint ≠ .resume request := by
  unfold requestMove
  split
  · split <;> nofun
  · nofun

/-- Events other than looks take nothing out. -/
theorem moveAt_ne_resume {event : Event η} (noLook : event.isLook = false)
    (settings : Except Fault Settings) (held : Json) (request : PendingRequest) :
    moveAt host settings held seat event ≠ .resume request := by
  cases event with
  | request symbol project hint token => exact requestMove_ne_resume _ _ _ _ _ request
  | uri text =>
      rw [moveAt]
      split
      · exact requestMove_ne_resume _ _ _ _ _ request
      · nofun
  | startup => nomatch noLook
  | focus => nomatch noLook
  | deposit record => nofun
  | configure settings => nofun
  | revise change => nofun

/-- Of an event other than a look, all that has to be seen is what its course leaves in the slot
and which writes it makes. -/
theorem movesSlot_of_no_look {event : Event η} (noLook : event.isLook = false)
    (there : session.seats[number]? = some seat)
    (moved :
      let left := ((respond host event).start (session.windowOf seat)).2.world
      let made := moveAt host session.settings session.slot seat event
      left.values.getOrNull Slot.key = made.after session.slot ∧
        left.calls.filter Call.isWrite = made.writes.map (.put Slot.key)) :
    MovesSlot host session number event := by
  have made := move_of_seat host event there
  constructor
  · rw [step_of_seat host event there, made]
    exact moved.1
  · rw [step_of_seat host event there, made]
    exact moved.2
  · intro request taken
    rw [made] at taken
    exact absurd taken (moveAt_ne_resume noLook _ _ request)
  · intro look
    exact absurd (look.symm.trans noLook) nofun

@[simp]
theorem filter_isWrite_writes (made : Move) :
    (made.writes.map (.put Slot.key)).filter Call.isWrite = made.writes.map (.put Slot.key) := by
  cases made <;> rfl

theorem start_respond_of_look {event : Event η} (look : event.isLook)
    (window : Window (Bench η)) :
    (respond host event).start window =
      let drained := (Opener.drain (Bench.environment host)).start window
      (drained.1.map Answer.standing, drained.2) := by
  cases event with
  | startup => exact start_bind_pure _ _ _
  | focus => exact start_bind_pure _ _ _
  | _ => nomatch look

theorem moveAt_of_look {event : Event η} (look : event.isLook)
    (settings : Except Fault Settings) (held : Json) :
    moveAt host settings held seat event = lookMove host seat.host held := by
  cases event with
  | startup => rfl
  | focus => rfl
  | _ => nomatch look

theorem movesSlot_of_look {event : Event η} (look : event.isLook)
    (there : session.seats[number]? = some seat) : MovesSlot host session number event := by
  obtain ⟨left, rests, resumes⟩ := drain_moves host (session.windowOf seat)
  have made := (move_of_seat host event there).trans (moveAt_of_look look _ _)
  have step := step_of_seat host event there
  rw [start_respond_of_look look] at step
  constructor
  · rw [step, made]
    exact left
  · rw [step, made]
    by_cases taken : ∃ request, lookMove host seat.host session.slot = .resume request
    · obtain ⟨request, taken⟩ := taken
      dsimp only
      rw [(resumes request taken).2, taken]
      simp [windowOf, Move.writes, Call.isWrite, List.filter_cons]
    · dsimp only
      rw [rests fun request resumed => taken ⟨request, resumed⟩]
      exact filter_isWrite_writes _
  · intro request taken
    rw [made] at taken
    obtain ⟨here, calls⟩ := resumes request taken
    refine ⟨seat, there, look, here, ?_⟩
    rw [step]
    exact calls
  · intro _ noResume
    rw [made] at noResume ⊢
    rw [step]
    exact rests noResume

/-- Every step makes its move on the slot. -/
theorem movesSlot (host : Host η) (session : Session η) (number : Nat) (event : Event η) :
    MovesSlot host session number event := by
  rcases there : session.seats[number]? with _ | seat
  · exact movesSlot_of_no_seat there
  cases event with
  | request symbol project hint token =>
      apply movesSlot_of_no_look rfl there
      rw [respond, start_bind_pure]
      exact handleRequest_moves host (session.windowOf seat) symbol project hint token
  | uri text =>
      apply movesSlot_of_no_look rfl there
      rw [respond, start_bind_pure]
      exact handleUri_moves host (session.windowOf seat) text
  | startup => exact movesSlot_of_look rfl there
  | focus => exact movesSlot_of_look rfl there
  | deposit record =>
      exact movesSlot_of_no_look rfl there ⟨Fields.getOrNull_write_self _ _ _, rfl⟩
  | configure settings => exact movesSlot_of_no_look rfl there ⟨rfl, rfl⟩
  | revise change => exact movesSlot_of_no_look rfl there ⟨rfl, rfl⟩

end Session

end SymbolJump
