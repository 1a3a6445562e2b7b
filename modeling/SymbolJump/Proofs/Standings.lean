/-
# What a standing tells

An opener deals with a pending request in three ways: it saves the request that it is given, it
takes out the one in the slot, or it leaves that one to another instance. Its standing tells which
of these it did last. The standing is taken as soon as the slot is dealt with, before the host is
asked for anything that can fail, so it tells the same however the host fares. Nothing else that
happens in a session has a say in it, and what other openers do has none either.
-/
import SymbolJump.Proofs.Steps

namespace SymbolJump

open Act Opener Register

variable {η : Type}

/-- What a move that a request makes comes to for the opener: a request that is written to the
slot is saved. -/
def Register.Move.saved? : Move → Option Standing
  | .write _ => some .saved
  | _ => none

namespace Session

/-- What a look at the slot comes to, at a host in the given state: a request there is taken out
when its project is open here, and left there otherwise. -/
def lookDealing? (host : Host η) (state : η) (held : Json) : Option Standing :=
  (PendingRequest.ofRecord? held).map fun request =>
    if Path.isOpenAmong request.project (host.roots state) then .consumed else .skipped

/-- What an event makes the opener at a seat do with a pending request, if anything. -/
def dealing? (host : Host η) (session : Session η) (seat : Seat η) (event : Event η) :
    Option Standing :=
  if event.isLook then lookDealing? host seat.host session.slot
  else
    event.demand?.bind fun demand =>
      (requestMove host session.settings seat.host demand.symbol demand.project
        demand.hint).saved?

/-- What the events of a session make the opener at one seat do with pending requests, one after
the other. -/
def dealings (host : Host η) (session : Session η) (number : Nat) :
    List (Nat × Event η) → List Standing
  | [] => []
  | (other, event) :: rest =>
      let own :=
        if other = number then
          session.seats[number]?.bind fun seat => session.dealing? host seat event
        else none
      own.toList ++ dealings host (session.step host other event).2 number rest

/-- What is said of one step at a seat. The opener there takes the standing that goes with what it
does with a pending request and keeps its standing when it does nothing with one, and no other
opener changes. What it does is seen from the slot and the calls, of which any may fail. -/
structure TakesStanding (host : Host η) (session : Session η) (number : Nat) (event : Event η)
    (seat : Seat η) : Prop where
  own : ∃ after, (session.step host number event).2.seats[number]? = some after ∧
    after.standing = (session.dealing? host seat event).getD seat.standing
  others : ∀ other, number ≠ other →
    (session.step host number event).2.seats[other]? = session.seats[other]?
  saved : session.dealing? host seat event = some .saved ↔
    event.demand?.isSome ∧ ∃ record, .put Slot.key record ∈ (session.step host number event).1.calls
  consumed : session.dealing? host seat event = some .consumed ↔
    event.isLook ∧ (PendingRequest.ofRecord? session.slot).isSome ∧
      .put Slot.key .null ∈ (session.step host number event).1.calls
  skipped : session.dealing? host seat event = some .skipped ↔
    event.isLook ∧ (PendingRequest.ofRecord? session.slot).isSome ∧
      .put Slot.key .null ∉ (session.step host number event).1.calls
  handsOver : ∀ demand inForce, event.demand? = some demand →
    HandsOver host session.settings seat.host demand.symbol demand.project inForce →
      session.dealing? host seat event = some .saved
  found : ∀ request, event.isLook → PendingRequest.ofRecord? session.slot = some request →
    session.dealing? host seat event =
      some (if Path.isOpenAmong request.project (host.roots seat.host) then .consumed
        else .skipped)
  /-- The slot is empty, or what is in it is no request. -/
  nothing : event.isLook → PendingRequest.ofRecord? session.slot = none →
    session.dealing? host seat event = none
  rejected : ∀ demand error, event.demand? = some demand →
    Rejects host session.settings seat.host demand.symbol demand.project error →
      session.dealing? host seat event = none
  resolved : ∀ query token, event.isLook = false → Opens host session.slot seat event query token →
    session.dealing? host seat event = none
  never : session.dealing? host seat event ≠ some .idle

/-- What is said of a whole run at a seat: its standing tells the last thing that the opener did
with a pending request. -/
structure TellsLatest (host : Host η) (session : Session η) (number : Nat)
    (events : List (Nat × Event η)) (seat last : Seat η) : Prop where
  there : (session.run host events).2.seats[number]? = some last
  latest : last.standing =
    (session.dealings host number events).getLast?.getD seat.standing
  idle : seat.standing = .idle →
    (last.standing = .idle ↔ session.dealings host number events = [])
  never : seat.standing ≠ .idle → last.standing ≠ .idle

variable {host : Host η} {session : Session η} {number : Nat} {event : Event η} {seat : Seat η}

section Moves

variable {settings : Except Fault Settings} {state : η} {symbol project : Option String}
  {error : RequestError} (hint : Option String)

theorem exists_requestMove_of_handsOver {inForce : Settings}
    (hands : HandsOver host settings state symbol project inForce) :
    ∃ record, requestMove host settings state symbol project hint = .write record := by
  obtain ⟨⟨symbol, rfl, givenSymbol⟩, ⟨project, rfl, givenProject⟩, rfl, elsewhere, allowed⟩ :=
    hands
  have away : ¬ Path.isOpenAmong project (host.roots state) := fun here => elsewhere ⟨_, rfl, here⟩
  exact ⟨_, if_pos ⟨givenSymbol, givenProject, away, allowed⟩⟩

/-- A request that is not handed over leaves the slot alone. -/
theorem requestMove_of_stays
    (stays : ∀ inForce, ¬ HandsOver host settings state symbol project inForce) :
    requestMove host settings state symbol project hint = .keep := by
  unfold requestMove
  split
  · next symbol project inForce =>
    apply if_neg
    rintro ⟨givenSymbol, givenProject, away, allowed⟩
    refine stays inForce ⟨⟨_, rfl, givenSymbol⟩, ⟨_, rfl, givenProject⟩, rfl, ?_, allowed⟩
    rintro ⟨path, same, here⟩
    exact away (Option.some.inj same ▸ here)
  · rfl

theorem requestMove_eq (host : Host η) (settings : Except Fault Settings) (state : η)
    (symbol project : Option String) :
    requestMove host settings state symbol project hint = .keep ∨
      ∃ record, requestMove host settings state symbol project hint = .write record := by
  by_cases hands : ∃ inForce, HandsOver host settings state symbol project inForce
  · obtain ⟨inForce, hands⟩ := hands
    exact .inr (exists_requestMove_of_handsOver hint hands)
  · exact .inl (requestMove_of_stays hint (not_exists.mp hands))

theorem requestMove_of_rejects (rejects : Rejects host settings state symbol project error) :
    requestMove host settings state symbol project hint = .keep :=
  requestMove_of_stays hint rejects.not_handsOver

theorem requestMove_of_here (here : IsHere host state project) :
    requestMove host settings state symbol project hint = .keep :=
  requestMove_of_stays hint fun _ hands => hands.elsewhere here

end Moves

/-- A request leaves the standing that goes with its move on the slot. -/
theorem standing_handleRequest (host : Host η) (window : Window (Bench η))
    (symbol project hint : Option String) (token : Option (η → Bool)) :
    ((handleRequest (Bench.environment host) symbol project hint
      (token.map fun cancelled bench => cancelled bench.host)).start window).2.standing =
    (requestMove host window.world.settings window.world.host symbol project
      hint).saved?.getD window.standing := by
  by_cases given : IsGiven symbol ∧ IsGiven project
  case neg =>
    obtain ⟨lines, course⟩ := start_handleRequest_of_missing host window hint
      (token.map fun cancelled bench => cancelled bench.host) given
    rw [course, requestMove_of_missing given]
    rfl
  obtain ⟨⟨symbol, rfl, givenSymbol⟩, ⟨project, rfl, givenProject⟩⟩ := given
  rcases holds : window.world.settings with fault | inForce
  · obtain ⟨lines, course⟩ := start_handleRequest_of_refused host window hint
      (token.map fun cancelled bench => cancelled bench.host) givenSymbol givenProject holds
    rw [course]
    rfl
  by_cases here : Path.isOpenAmong project (host.roots window.world.host)
  · obtain ⟨lines, course⟩ := start_handleRequest_of_here host window hint token
      givenSymbol givenProject holds here
    rw [course, requestMove_of_here _ ⟨_, rfl, here⟩]
    rfl
  by_cases forbids : inForce.notOpen = .error
  · obtain ⟨lines, course⟩ := start_handleRequest_of_forbidden host window hint
      (token.map fun cancelled bench => cancelled bench.host)
      givenSymbol givenProject holds here forbids
    rw [course]
    simp [requestMove, forbids, Move.saved?, Aftermath.leave]
  · -- The standing is taken before the project is opened, and opening it leaves it alone.
    obtain ⟨lines, course⟩ := start_handleRequest_of_elsewhere host window hint
      (token.map fun cancelled bench => cancelled bench.host)
      givenSymbol givenProject holds here forbids
    rw [course]
    simp [requestMove, givenSymbol, givenProject, here, forbids, Move.saved?, Aftermath.leave]

/-- A look leaves the standing that goes with what is in the slot. -/
theorem standing_drain (host : Host η) (window : Window (Bench η)) :
    ((drain (Bench.environment host)).start window).2.standing =
      (lookDealing? host window.world.host
        (window.world.values.getOrNull Slot.key)).getD window.standing := by
  by_cases empty : window.world.values.getOrNull Slot.key = .null
  · rw [start_drain_of_null host window empty, empty]
    rfl
  rcases found : PendingRequest.ofRecord? (window.world.values.getOrNull Slot.key)
    with _ | request
  · obtain ⟨lines, course⟩ := start_drain_of_malformed host window empty found
    rw [course, lookDealing?, found]
    rfl
  by_cases here : Path.isOpenAmong request.project (host.roots window.world.host)
  · -- The standing is taken before the request is resumed, and resuming it leaves it alone.
    obtain ⟨lines, course⟩ := start_drain_of_here host window found here
    rw [course]
    simp [lookDealing?, found, here, Aftermath.leave]
  · obtain ⟨lines, course⟩ := start_drain_of_elsewhere host window found here
    rw [course]
    simp [lookDealing?, found, here]

theorem standing_respond_of_no_demand (host : Host η) (window : Window (Bench η))
    (noLook : event.isLook = false) (asked : event.demand? = none) :
    ((respond host event).start window).2.standing = window.standing := by
  cases event with
  | request symbol project hint token => cases asked
  | uri text =>
      rw [Event.demand?] at asked
      rcases read : OpenRequest.ofUri text with error | request
      · obtain ⟨lines, course⟩ := start_handleUri_of_refused host window read
        rw [respond, start_bind_pure, course]
      · rw [read] at asked
        cases asked
  | startup => cases noLook
  | focus => cases noLook
  | deposit record => rfl
  | configure settings => rfl
  | revise change => rfl

/-- A step leaves at its seat the standing that goes with what is done there. -/
theorem exists_standing_step (host : Host η) (there : session.seats[number]? = some seat)
    (event : Event η) :
    ∃ after, (session.step host number event).2.seats[number]? = some after ∧
      after.standing = (session.dealing? host seat event).getD seat.standing := by
  unfold dealing?
  by_cases look : event.isLook
  · rw [step_of_seat host event there, start_respond_of_look look, if_pos look]
    exact ⟨_, seats_set_self there _, standing_drain host (session.windowOf seat)⟩
  rw [if_neg look]
  rcases asked : event.demand? with _ | demand
  · rw [step_of_seat host event there]
    refine ⟨_, seats_set_self there _, ?_⟩
    exact standing_respond_of_no_demand host _ (eq_false_of_ne_true look) asked
  · obtain ⟨lines, step⟩ := @step_of_demand _ host _ _ _ _ _ there asked
    rw [step]
    refine ⟨_, seats_set_self there _, ?_⟩
    exact standing_handleRequest host (session.windowWith seat lines) _ _ _ _

/-- The values that a step writes to the slot are those of its move. -/
theorem put_mem_calls_iff (record : Json) :
    .put Slot.key record ∈ (session.step host number event).1.calls ↔
      record ∈ (session.move host number event).writes := by
  have among (calls : List Call) :
      .put Slot.key record ∈ calls ↔ .put Slot.key record ∈ calls.filter Call.isWrite := by
    simp [Call.isWrite]
  rw [among, (movesSlot host session number event).writes]
  simp

theorem moveAt_of_demand {demand : Demand η} (asked : event.demand? = some demand)
    (settings : Except Fault Settings) (held : Json) :
    moveAt host settings held seat event =
      requestMove host settings seat.host demand.symbol demand.project demand.hint := by
  cases event with
  | request symbol project hint token =>
      cases asked
      rfl
  | uri text =>
      rw [Event.demand?] at asked
      rcases read : OpenRequest.ofUri text with error | request
      · rw [read] at asked
        cases asked
      · rw [read] at asked
        cases asked
        simp only [moveAt, read]
  | _ => cases asked

theorem dealing?_of_look (look : event.isLook) :
    session.dealing? host seat event = lookDealing? host seat.host session.slot :=
  if_pos look

theorem dealing?_of_demand {demand : Demand η} (asked : event.demand? = some demand) :
    session.dealing? host seat event =
      (requestMove host session.settings seat.host demand.symbol demand.project
        demand.hint).saved? := by
  rw [dealing?, isLook_of_demand asked, asked]
  rfl

theorem dealing?_of_no_demand (noLook : event.isLook = false) (asked : event.demand? = none) :
    session.dealing? host seat event = none := by
  rw [dealing?, noLook, asked]
  rfl

/-- Only requests are saved, and an event that is no look deals with a request in no other way. -/
theorem dealing?_ne_of_no_look {standing : Standing} (noLook : event.isLook = false)
    (other : standing ≠ .saved) : session.dealing? host seat event ≠ some standing := by
  rcases asked : event.demand? with _ | demand
  · simp [dealing?_of_no_demand noLook asked]
  · rw [dealing?_of_demand asked]
    rcases requestMove_eq demand.hint host session.settings seat.host demand.symbol demand.project
      with kept | ⟨record, written⟩
    · simp [kept, Move.saved?]
    · simp [written, Move.saved?, other.symm]

theorem dealing?_of_found {request : PendingRequest} (look : event.isLook)
    (found : PendingRequest.ofRecord? session.slot = some request) :
    session.dealing? host seat event =
      some (if Path.isOpenAmong request.project (host.roots seat.host) then .consumed
        else .skipped) := by
  rw [dealing?_of_look look, lookDealing?, found]
  rfl

theorem dealing?_of_nothing (look : event.isLook)
    (nothing : PendingRequest.ofRecord? session.slot = none) :
    session.dealing? host seat event = none := by
  rw [dealing?_of_look look, lookDealing?, nothing]
  rfl

/-- A look takes a request out or leaves it in the slot, if it does anything with one. -/
theorem dealing?_ne_of_look {standing : Standing} (look : event.isLook)
    (stays : standing ≠ .consumed) (left : standing ≠ .skipped) :
    session.dealing? host seat event ≠ some standing := by
  rcases found : PendingRequest.ofRecord? session.slot with _ | request
  · simp [dealing?_of_nothing look found]
  · rw [dealing?_of_found look found]
    split
    · exact fun same => stays (Option.some.inj same).symm
    · exact fun same => left (Option.some.inj same).symm

/-- A request is saved exactly when something is written to the slot. -/
theorem dealing?_eq_saved_iff (there : session.seats[number]? = some seat) :
    session.dealing? host seat event = some .saved ↔ event.demand?.isSome ∧
      ∃ record, .put Slot.key record ∈ (session.step host number event).1.calls := by
  rcases asked : event.demand? with _ | demand
  · simp only [Option.isSome_none, Bool.false_eq_true, false_and, iff_false]
    by_cases look : event.isLook
    · exact dealing?_ne_of_look look nofun nofun
    · simp [dealing?_of_no_demand (eq_false_of_ne_true look) asked]
  · simp only [put_mem_calls_iff]
    rw [dealing?_of_demand asked, move_of_seat host event there, moveAt_of_demand asked]
    rcases requestMove_eq demand.hint host session.settings seat.host demand.symbol demand.project
      with kept | ⟨record, written⟩
    · simp [kept, Move.saved?, Move.writes]
    · simp [written, Move.saved?, Move.writes]

/-- A look at a slot with a request deletes it exactly when its project is open here. -/
theorem put_null_mem_calls_iff {request : PendingRequest}
    (there : session.seats[number]? = some seat) (look : event.isLook)
    (found : PendingRequest.ofRecord? session.slot = some request) :
    .put Slot.key .null ∈ (session.step host number event).1.calls ↔
      Path.isOpenAmong request.project (host.roots seat.host) := by
  have filled : session.slot ≠ .null := by
    intro empty
    rw [empty] at found
    nomatch found
  rw [put_mem_calls_iff, move_of_seat host event there, moveAt_of_look look, lookMove,
    if_neg filled, found]
  dsimp only
  split
  · next here => simp [here, Move.writes]
  · next away => simp [away, Move.writes]

/-- A request that a look finds is taken out if the look deletes it, and left in the slot if not. -/
theorem dealing?_eq_iff_of_ne_saved (there : session.seats[number]? = some seat)
    {standing : Standing} (other : standing ≠ .saved) :
    session.dealing? host seat event = some standing ↔
      event.isLook ∧ (PendingRequest.ofRecord? session.slot).isSome ∧
        standing = if .put Slot.key .null ∈ (session.step host number event).1.calls then .consumed
          else .skipped := by
  by_cases look : event.isLook
  · rcases found : PendingRequest.ofRecord? session.slot with _ | request
    · simp [dealing?_of_nothing look found]
    · simp only [put_null_mem_calls_iff there look found, dealing?_of_found look found]
      exact ⟨fun same => ⟨look, rfl, (Option.some.inj same).symm⟩,
        fun ⟨_, _, same⟩ => congrArg some same.symm⟩
  · simp [dealing?_ne_of_no_look (eq_false_of_ne_true look) other, look]

/-- A request is taken out exactly when a look deletes it. -/
theorem dealing?_eq_consumed_iff (there : session.seats[number]? = some seat) :
    session.dealing? host seat event = some .consumed ↔
      event.isLook ∧ (PendingRequest.ofRecord? session.slot).isSome ∧
        .put Slot.key .null ∈ (session.step host number event).1.calls := by
  rw [dealing?_eq_iff_of_ne_saved there (by decide)]
  simp

/-- A request is left in the slot exactly when a look finds it and does not delete it. -/
theorem dealing?_eq_skipped_iff (there : session.seats[number]? = some seat) :
    session.dealing? host seat event = some .skipped ↔
      event.isLook ∧ (PendingRequest.ofRecord? session.slot).isSome ∧
        .put Slot.key .null ∉ (session.step host number event).1.calls := by
  rw [dealing?_eq_iff_of_ne_saved there (by decide)]
  simp

theorem dealing?_ne_idle : session.dealing? host seat event ≠ some .idle := by
  by_cases look : event.isLook
  · exact dealing?_ne_of_look look nofun nofun
  · exact dealing?_ne_of_no_look (eq_false_of_ne_true look) nofun

theorem dealing?_of_opens {query : Query} {token : Option (η → Bool)}
    (noLook : event.isLook = false) (opens : Opens host session.slot seat event query token) :
    session.dealing? host seat event = none := by
  cases opens with
  | asked demand _ _ here =>
      rw [dealing?_of_demand demand, requestMove_of_here _ ⟨_, rfl, here⟩]
      rfl
  | taken look => nomatch noLook.symm.trans look

/-- Every step leaves the standings as it deals with requests. -/
theorem takesStanding (host : Host η) (there : session.seats[number]? = some seat)
    (event : Event η) : TakesStanding host session number event seat where
  own := exists_standing_step host there event
  others _ apart := seats_step_of_ne apart event
  saved := dealing?_eq_saved_iff there
  consumed := dealing?_eq_consumed_iff there
  skipped := dealing?_eq_skipped_iff there
  handsOver _ _ asked hands := by
    obtain ⟨record, written⟩ := exists_requestMove_of_handsOver _ hands
    rw [dealing?_of_demand asked, written]
    rfl
  found _ := dealing?_of_found
  nothing := dealing?_of_nothing
  rejected demand error asked rejects := by
    rw [dealing?_of_demand asked, requestMove_of_rejects _ rejects]
    rfl
  resolved query token := dealing?_of_opens
  never := dealing?_ne_idle

theorem idle_not_mem_dealings (host : Host η) (session : Session η) (number : Nat)
    (events : List (Nat × Event η)) : .idle ∉ session.dealings host number events := by
  induction events generalizing session with
  | nil => exact List.not_mem_nil
  | cons entry rest ih =>
      rw [dealings, List.mem_append, Option.mem_toList]
      rintro (own | later)
      · split at own
        · obtain ⟨seat, -, dealt⟩ := Option.bind_eq_some_iff.mp own
          exact dealing?_ne_idle dealt
        · nomatch own
      · exact ih _ later

/-- After a run, a seat has the standing of the last dealing there, or the one from before. -/
theorem exists_standing_run (host : Host η) (there : session.seats[number]? = some seat)
    (events : List (Nat × Event η)) :
    ∃ last, (session.run host events).2.seats[number]? = some last ∧
      last.standing = (session.dealings host number events).getLast?.getD seat.standing := by
  induction events generalizing session seat with
  | nil => exact ⟨seat, there, rfl⟩
  | cons entry rest ih =>
      obtain ⟨other, event⟩ := entry
      rw [dealings]
      by_cases same : other = number
      · subst same
        obtain ⟨after, left, standing⟩ := exists_standing_step host there event
        obtain ⟨last, ends, remains⟩ := ih left
        refine ⟨last, ends, ?_⟩
        rw [remains, standing, if_pos rfl, there, Option.bind_some, List.getLast?_append]
        cases session.dealing? host seat event <;>
          cases (dealings host _ other rest).getLast? <;> rfl
      · rw [if_neg same]
        exact ih ((seats_step_of_ne same event).trans there)

theorem tellsLatest (host : Host η) (there : session.seats[number]? = some seat)
    (events : List (Nat × Event η)) :
    ∃ last, TellsLatest host session number events seat last := by
  obtain ⟨last, ends, remains⟩ := exists_standing_run host there events
  have idle : last.standing = .idle ↔
      session.dealings host number events = [] ∧ seat.standing = .idle := by
    rw [remains]
    rcases latest : (session.dealings host number events).getLast? with _ | standing
    · simp [List.getLast?_eq_none_iff.mp latest]
    · have member := List.mem_of_getLast? latest
      apply iff_of_false
      · rintro rfl
        exact idle_not_mem_dealings host session number events member
      · exact fun none => List.ne_nil_of_mem member none.1
  refine ⟨last, ends, remains, fun before => ?_, fun before now => before (idle.mp now).2⟩
  rw [idle, and_iff_left before]

/-- Over every session, and whatever the hosts do, the standing of an opener tells what it did last
with a pending request: that it saved one, took one out or left one in the slot, also when it then
failed to open the project or to resume the request. It is idle as long as the opener did nothing
with one, and never again. -/
theorem standing_tells_latest_dealing (host : Host η) :
    (∀ session number event seat, session.seats[number]? = some seat →
      TakesStanding host session number event seat) ∧
      ∀ session events number seat, session.seats[number]? = some seat →
        ∃ last, TellsLatest host session number events seat last :=
  ⟨fun _ _ event _ there => takesStanding host there event,
    fun _ events _ _ there => tellsLatest host there events⟩

/-- A project that cannot be opened has its request saved all the same, and an index that fails
when the request is resumed has it taken out all the same. A look at the empty slot after that
tells nothing new. -/
theorem standing_tells_latest_dealing_of_failing_host :
    let host : Host Script :=
      { Script.host with
        openProject := fun _ _ => throw (.reported "OSError" "no window")
        query := fun _ => throw (.reported "OSError" "no index") }
    let session : Session Script :=
      { seats := [{ host := {} }, { host := { roots := ["/p"] } }]
        settings := .ok Script.settings }
    let events : List (Nat × Event Script) :=
      [(0, .request (some "f") (some "/p") none none), (1, .focus), (0, .focus)]
    (∃ last, TellsLatest host session 0 events { host := {} } last ∧ last.standing = .saved) ∧
      ∃ last, TellsLatest host session 1 events { host := { roots := ["/p"] } } last ∧
        last.standing = .consumed := by
  intro host session events
  have tells := (standing_tells_latest_dealing host).2 session events
  constructor
  · obtain ⟨last, told⟩ := tells 0 _ rfl
    exact ⟨last, told, told.latest.trans (by decide +kernel)⟩
  · obtain ⟨last, told⟩ := tells 1 _ rfl
    exact ⟨last, told, told.latest.trans (by decide +kernel)⟩

end Session

end SymbolJump
