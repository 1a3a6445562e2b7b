/-
# What comes of an event

The whole course of a request, and of a look at the slot, in every case. Each is an equation: the
answer, and the window with the calls that were added to it. The run that opens a symbol enters
as its course on an empty bench, which is the same for a request that is served here and for one
that is taken from the slot.
-/
import SymbolJump.Proofs.Openers

namespace SymbolJump.Opener

open Act Bench

variable {η α β : Type} (host : Host η) (window : Window (Bench η))

theorem aftermath_map (state : η) (answer : Except Fault α) (f : α → β) :
    aftermath host state (answer.map f) = aftermath host state answer := by
  rcases answer with fault | answer
  · cases fault <;> rfl
  · rfl

/-- Opening a symbol changes the host of a window as it would by itself, adds its calls, and
leaves all else. -/
theorem start_openSymbol_bind (query : Query) (token : Option (η → Bool))
    (next : Outcome → Act (Window (Bench η)) α) (finish : Outcome → α)
    (quiet : ∀ outcome world, (next outcome).start { window with world } =
      (.ok (finish outcome), { window with world })) :
    let alone := opening host window.world.settings window.world.host query token
    ∃ lines, (do
        let outcome ← Window.inWorld (openSymbol (environment host) query
          (token.map fun cancelled bench => cancelled bench.host))
        next outcome : Act (Window (Bench η)) α).start window =
      (alone.1.map finish, { window with
        world := { window.world with
          host := alone.2.host
          calls := window.world.calls ++ alone.2.calls
          lines } }) := by
  intro alone
  obtain ⟨answered, extended⟩ := Bench.start_openSymbol host query token window.world
  rcases course : (openSymbol (environment host) query
    (token.map fun cancelled bench => cancelled bench.host)).start window.world
    with ⟨answer, bench⟩
  rw [course] at answered extended
  refine ⟨bench.lines, ?_⟩
  rw [start_bind, Window.start_inWorld_of_course course, ← extended.eq_origin, ← answered]
  cases answer with
  | error fault => rfl
  | ok outcome => exact quiet outcome bench

section Requests

variable {symbol project : String} (hint : Option String)

theorem start_none :
    (return none : Act (Window (Bench η)) (Option Outcome)).start window = (.ok none, window) :=
  rfl

theorem start_handleRequest_of_missing (token : Option (Bench η → Bool))
    {symbol project : Option String} (missing : ¬ (IsGiven symbol ∧ IsGiven project)) :
    let rest := aftermath host window.world.host
      (.error (.request .missingParameters) : Except Fault (Option Outcome))
    ∃ lines, (handleRequest (environment host) symbol project hint token).start window =
      (rest.answer (.error (.request .missingParameters)) none, rest.leave lines window) :=
  start_reporting host (start_serve_of_missing host hint token missing) start_none

theorem start_handleRequest_of_refused (token : Option (Bench η → Bool)) {fault : Fault}
    (givenSymbol : symbol ≠ "") (givenProject : project ≠ "")
    (refused : window.world.settings = .error fault) :
    let rest := aftermath host window.world.host (.error fault : Except Fault (Option Outcome))
    ∃ lines, (handleRequest (environment host) (some symbol) (some project) hint token).start
        window = (rest.answer (.error fault) none, rest.leave lines window) :=
  start_reporting host (start_serve_of_refused host hint token givenSymbol givenProject refused)
    start_none

/-- A request whose project is open here is resolved here, and nothing is saved. -/
theorem start_handleRequest_of_here (token : Option (η → Bool)) {settings : Settings}
    (givenSymbol : symbol ≠ "") (givenProject : project ≠ "")
    (inForce : window.world.settings = .ok settings)
    (here : Path.isOpenAmong project (host.roots window.world.host)) :
    let alone := opening host (.ok settings) window.world.host ⟨symbol, hint⟩ token
    let rest := aftermath host alone.2.host alone.1
    ∃ lines, (handleRequest (environment host) (some symbol) (some project) hint
        (token.map fun cancelled bench => cancelled bench.host)).start window =
      (rest.answer (alone.1.map some) none, rest.leave lines { window with
        world := { window.world with
          host := alone.2.host
          calls := window.world.calls ++ alone.2.calls } }) := by
  intro alone rest
  obtain ⟨before, served⟩ := start_serve_of_inForce host hint
    (token.map fun cancelled (bench : Bench η) => cancelled bench.host)
    givenSymbol givenProject inForce
  rw [if_pos here] at served
  obtain ⟨lines, opened⟩ := start_openSymbol_bind host
    { window with world := { window.world with lines := before } }
    ⟨symbol, hint⟩ token (fun outcome => pure (some outcome)) some (fun _ _ => rfl)
  rw [inForce] at opened
  obtain ⟨after, course⟩ := start_reporting host (served.trans opened) start_none
  rw [aftermath_map] at course
  exact ⟨after, course⟩

/-- A policy that forbids it keeps a request for another project from being saved. -/
theorem start_handleRequest_of_forbidden (token : Option (Bench η → Bool)) {settings : Settings}
    (givenSymbol : symbol ≠ "") (givenProject : project ≠ "")
    (inForce : window.world.settings = .ok settings)
    (elsewhere : ¬ Path.isOpenAmong project (host.roots window.world.host))
    (forbidden : settings.notOpen = .error) :
    let fault := Fault.request (.projectNotOpen project)
    let rest := aftermath host window.world.host (.error fault : Except Fault (Option Outcome))
    ∃ lines, (handleRequest (environment host) (some symbol) (some project) hint token).start
        window = (rest.answer (.error fault) none, rest.leave lines window) := by
  intro fault rest
  obtain ⟨before, served⟩ := start_serve_of_inForce host hint token
    givenSymbol givenProject inForce
  rw [if_neg elsewhere, forbidden] at served
  obtain ⟨lines, course⟩ := start_reporting host (served.trans rfl) start_none
  exact ⟨lines, course⟩

/-- Any other request for another project is saved, and its project is opened. -/
theorem start_handleRequest_of_elsewhere (token : Option (Bench η → Bool)) {settings : Settings}
    (givenSymbol : symbol ≠ "") (givenProject : project ≠ "")
    (inForce : window.world.settings = .ok settings)
    (elsewhere : ¬ Path.isOpenAmong project (host.roots window.world.host))
    (allowed : settings.notOpen ≠ .error) :
    let request : PendingRequest := ⟨symbol, project, hint⟩
    let newWindow := settings.notOpen == .newWindow
    let opened := (host.openProject project newWindow).start window.world.host
    let rest := aftermath host opened.2 opened.1
    ∃ lines, (handleRequest (environment host) (some symbol) (some project) hint token).start
        window =
      (rest.answer (opened.1.map fun _ => none) none, rest.leave lines { window with
        world := { window.world with
          host := opened.2
          calls := window.world.calls ++
            [.put Slot.key request.toRecord, .openProject project newWindow]
          values := window.world.values.write Slot.key request.toRecord }
        standing := .saved }) := by
  intro request newWindow opened rest
  obtain ⟨before, served⟩ := start_serve_of_inForce host hint token
    givenSymbol givenProject inForce
  rw [if_neg elsewhere] at served
  obtain ⟨lines, handed⟩ := Handoff.start_handOff host request allowed
    { window with world := { window.world with lines := before } }
  have course : (serve (environment host) (some symbol) (some project) hint token).start window =
      (opened.1.map fun _ => none, { window with
        world := { window.world with
          host := opened.2
          calls := window.world.calls ++
            [.put Slot.key request.toRecord, .openProject project newWindow]
          lines
          values := window.world.values.write Slot.key request.toRecord }
        standing := .saved }) := by
    rw [served, start_bind, handed]
    dsimp only
    rcases opened.1 with fault | done
    · rfl
    · rfl
  obtain ⟨after, reported⟩ := start_reporting host course start_none
  rw [aftermath_map] at reported
  exact ⟨after, reported⟩

theorem start_handleUri_of_refused {uri : String} {error : AuthorityError}
    (refused : OpenRequest.ofUri uri = .error error) :
    ∃ lines, (handleUri (environment host) uri).start window =
      (.error (.refusal (.authority error)),
        { window with world := { window.world with lines } }) := by
  unfold handleUri
  rw [start_bind, refused]
  exact ⟨_, rfl⟩

/-- A URI that can be read is handled as the request in it. -/
theorem start_handleUri_of_read {uri : String} {request : OpenRequest}
    (read : OpenRequest.ofUri uri = .ok request) :
    ∃ lines, (handleUri (environment host) uri).start window =
      (handleRequest (environment host) request.symbol request.project request.kind none).start
        { window with world := { window.world with lines } } := by
  unfold handleUri
  rw [start_bind, read]
  exact ⟨_, rfl⟩

end Requests

section Looks

variable {request : PendingRequest}

theorem start_standing :
    (do return (← get).standing : Act (Window (Bench η)) Standing).start window =
      (.ok window.standing, window) := rfl

theorem start_drain_of_null (empty : window.world.values.getOrNull Slot.key = .null) :
    (drain (environment host)).start window = (.ok window.standing, window) := by
  unfold drain reporting
  rw [start_tryCatch, Handoff.start_processPending_of_null host _ empty]

/-- A record that is no request is deleted, and nothing else is done. -/
theorem start_drain_of_malformed (filled : window.world.values.getOrNull Slot.key ≠ .null)
    (malformed : PendingRequest.ofRecord? (window.world.values.getOrNull Slot.key) = none) :
    ∃ lines, (drain (environment host)).start window =
      (.ok window.standing, { window with
        world := { window.world with
          calls := window.world.calls ++ [.put Slot.key .null]
          lines
          values := window.world.values.write Slot.key .null } }) := by
  obtain ⟨lines, course⟩ := Handoff.start_processPending_of_malformed host
    (resume (environment host)) filled malformed
  unfold drain reporting
  rw [start_tryCatch, course]
  exact ⟨lines, rfl⟩

theorem start_drain_of_elsewhere
    (found : PendingRequest.ofRecord? (window.world.values.getOrNull Slot.key) = some request)
    (elsewhere : ¬ Path.isOpenAmong request.project (host.roots window.world.host)) :
    ∃ lines, (drain (environment host)).start window =
      (.ok .skipped,
        { window with world := { window.world with lines }, standing := .skipped }) := by
  obtain ⟨lines, course⟩ := Handoff.start_processPending_of_elsewhere host
    (resume (environment host)) found elsewhere
  unfold drain reporting
  rw [start_tryCatch, course]
  exact ⟨lines, rfl⟩

/-- A request for a project that is open here is deleted, and then resolved as it would be had it
been made here. -/
theorem start_drain_of_here
    (found : PendingRequest.ofRecord? (window.world.values.getOrNull Slot.key) = some request)
    (here : Path.isOpenAmong request.project (host.roots window.world.host)) :
    let alone := opening host window.world.settings window.world.host
      ⟨request.symbol, request.hint⟩ none
    let rest := aftermath host alone.2.host alone.1
    ∃ lines, (drain (environment host)).start window =
      (rest.answer (alone.1.map fun _ => .consumed) .consumed, rest.leave lines { window with
        world := { window.world with
          host := alone.2.host
          calls := window.world.calls ++ [.put Slot.key .null] ++ alone.2.calls
          values := window.world.values.write Slot.key .null }
        standing := .consumed }) := by
  intro alone rest
  obtain ⟨before, taken⟩ := Handoff.start_processPending_of_here host
    (resume (environment host)) found here
  let cleared : Window (Bench η) := { window with
    world := { window.world with
      calls := window.world.calls ++ [.put Slot.key .null]
      lines := before
      values := window.world.values.write Slot.key .null }
    standing := .consumed }
  obtain ⟨lines, opened⟩ := start_openSymbol_bind host cleared
    ⟨request.symbol, request.hint⟩ none
    (fun _ => (do return (← get).standing : Act (Window (Bench η)) Standing))
    (fun _ => .consumed) (fun _ _ => rfl)
  simp only [resume, bind_assoc, pure_bind] at taken
  obtain ⟨after, course⟩ := start_reporting host (taken.trans opened) start_standing
  rw [aftermath_map] at course
  exact ⟨after, course⟩

end Looks

end SymbolJump.Opener
