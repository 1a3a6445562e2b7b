/-
# Where a request goes

A request takes one of three ways. One that lacks a part, or comes under settings that are refused,
or asks for a project that may not be opened, is rejected: the user is told, and that is all. One
whose project is open here is resolved here, and touches neither the store nor another instance.
Any other one is saved, its project is opened, and nothing is asked of the index, the picker or the
editor. Which way it is has been settled before the host is called for the first time, so no failure
of the host can make a request go two ways.
-/
import SymbolJump.Proofs.Slot

namespace SymbolJump.Opener

open Act Bench

variable {η : Type}

/-- The project of a request is open here. -/
def IsHere (host : Host η) (state : η) (project : Option String) : Prop :=
  ∃ path, project = some path ∧ Path.isOpenAmong path (host.roots state)

/-- Why a request is rejected before anything is done about it. -/
inductive Rejects (host : Host η) (settings : Except Fault Settings) (state : η)
    (symbol project : Option String) : RequestError → Prop
  | missing (missing : ¬ (IsGiven symbol ∧ IsGiven project)) :
      Rejects host settings state symbol project .missingParameters
  | refused {error : RequestError} (givenSymbol : IsGiven symbol) (givenProject : IsGiven project)
      (refused : settings = .error (.request error)) :
      Rejects host settings state symbol project error
  | forbidden {inForce : Settings} {path : String} (givenSymbol : IsGiven symbol)
      (givenProject : IsGiven project) (holds : settings = .ok inForce)
      (named : project = some path) (elsewhere : ¬ IsHere host state project)
      (forbids : inForce.notOpen = .error) :
      Rejects host settings state symbol project (.projectNotOpen path)

/-- A request is handed over under settings that hold. -/
structure HandsOver (host : Host η) (settings : Except Fault Settings) (state : η)
    (symbol project : Option String) (inForce : Settings) : Prop where
  givenSymbol : IsGiven symbol
  givenProject : IsGiven project
  holds : settings = .ok inForce
  elsewhere : ¬ IsHere host state project
  allowed : inForce.notOpen ≠ .error

/-- What is said of one request: the calls that it makes, and what becomes of the window. -/
structure GoesOneWay (host : Host η) (window : Window (Bench η))
    (symbol project hint : Option String) (made : List Call) (after : Window (Bench η)) :
    Prop where
  calls : after.world.calls = window.world.calls ++ made
  once : (made.filter Call.isWrite).length ≤ 1
  noDeletion : ∀ key, .put key .null ∉ made
  /-- A value is written exactly when the request is handed over. -/
  writes : (∃ call ∈ made, call.isWrite) ↔
    ∃ inForce, HandsOver host window.world.settings window.world.host symbol project inForce
  /-- A request that is handed over is written before its project is opened, and nothing else is
  done but to tell the user of a failure. -/
  hands : ∀ inForce,
    HandsOver host window.world.settings window.world.host symbol project inForce →
      ∃ name path told, symbol = some name ∧ project = some path ∧
        made = .put Slot.key (PendingRequest.toRecord ⟨name, path, hint⟩) ::
          .openProject path (inForce.notOpen == .newWindow) :: told ∧
        (told = [] ∨ ∃ message, told = [.showError message])
  here : IsHere host window.world.host project → ∀ call ∈ made, call.isLocal
  rejects : ∀ error,
    Rejects host window.world.settings window.world.host symbol project error →
      made = [.showError error.message] ∧ after.standing = window.standing ∧
        after.world.values = window.world.values

theorem not_isWrite_of_isLocal {call : Call} (here : call.isLocal) : ¬ call.isWrite := by
  cases call with
  | put key value => nomatch here
  | _ => nofun

/-- After an act, the user is told of one failure or of none. -/
theorem aftermath_calls {α : Type} (host : Host η) (state : η) (answer : Except Fault α) :
    (aftermath host state answer).calls = [] ∨
      ∃ message, (aftermath host state answer).calls = [.showError message] := by
  rcases answer with fault | answer
  · cases fault with
    | request error => exact .inr ⟨error.message, aftermath_calls_of_request host state error⟩
    | _ => exact .inl rfl
  · exact .inl rfl

theorem isLocal_of_mem_aftermath {α : Type} {host : Host η} {state : η}
    {answer : Except Fault α} {call : Call} (made : call ∈ (aftermath host state answer).calls) :
    call.isLocal := by
  rcases aftermath_calls host state answer with none | ⟨message, told⟩
  · rw [none] at made
    nomatch made
  · rw [told, List.mem_singleton] at made
    rw [made]
    rfl

section Ways

variable {host : Host η} {window after : Window (Bench η)} {symbol project hint : Option String}
  {made : List Call}

/-- A request that is not handed over, and whose calls concern its own instance alone. -/
theorem goesOneWay_of_isLocal (calls : after.world.calls = window.world.calls ++ made)
    (own : ∀ call ∈ made, call.isLocal)
    (stays : ∀ inForce,
      ¬ HandsOver host window.world.settings window.world.host symbol project inForce)
    (rejects : ∀ error,
      Rejects host window.world.settings window.world.host symbol project error →
        made = [.showError error.message] ∧ after.standing = window.standing ∧
          after.world.values = window.world.values) :
    GoesOneWay host window symbol project hint made after where
  calls := calls
  once := by
    have none : made.filter Call.isWrite = [] :=
      List.filter_eq_nil_iff.mpr fun call member => not_isWrite_of_isLocal (own call member)
    rw [none]
    exact Nat.zero_le 1
  noDeletion key member := nomatch own _ member
  writes := by
    refine iff_of_false ?_ fun ⟨inForce, hands⟩ => stays inForce hands
    rintro ⟨call, member, writes⟩
    exact not_isWrite_of_isLocal (own call member) writes
  hands inForce hands := absurd hands (stays inForce)
  here _ := own
  rejects := rejects

end Ways

section Rejected

variable {host : Host η} {settings : Except Fault Settings} {state : η}
  {symbol project : Option String} {error other : RequestError}

theorem Rejects.unique (rejected : Rejects host settings state symbol project error)
    (also : Rejects host settings state symbol project other) : error = other := by
  cases rejected with
  | missing missing =>
      cases also with
      | missing => rfl
      | refused givenSymbol givenProject => exact absurd ⟨givenSymbol, givenProject⟩ missing
      | forbidden givenSymbol givenProject => exact absurd ⟨givenSymbol, givenProject⟩ missing
  | refused givenSymbol givenProject refused =>
      cases also with
      | missing missing => exact absurd ⟨givenSymbol, givenProject⟩ missing
      | refused _ _ same => exact Fault.request.inj (Except.error.inj (refused.symm.trans same))
      | forbidden _ _ holds => nomatch refused.symm.trans holds
  | forbidden givenSymbol givenProject holds named =>
      cases also with
      | missing missing => exact absurd ⟨givenSymbol, givenProject⟩ missing
      | refused _ _ refused => nomatch refused.symm.trans holds
      | forbidden _ _ _ same => rw [Option.some.inj (named.symm.trans same)]

theorem Rejects.not_handsOver (rejected : Rejects host settings state symbol project error)
    (inForce : Settings) : ¬ HandsOver host settings state symbol project inForce := by
  rintro ⟨givenSymbol, givenProject, holds, elsewhere, allowed⟩
  cases rejected with
  | missing missing => exact missing ⟨givenSymbol, givenProject⟩
  | refused _ _ refused => nomatch refused.symm.trans holds
  | forbidden _ _ same _ _ forbids =>
      rw [Except.ok.inj (same.symm.trans holds)] at forbids
      exact allowed forbids

end Rejected

/-- A rejected request is told of, and nothing else is done about it. -/
theorem goesOneWay_of_rejects {host : Host η} {window : Window (Bench η)}
    {symbol project : Option String} {error : RequestError}
    (rejected : Rejects host window.world.settings window.world.host symbol project error)
    (hint : Option String) (lines : List LogLine) :
    let rest := aftermath host window.world.host
      (.error (.request error) : Except Fault (Option Outcome))
    GoesOneWay host window symbol project hint rest.calls (rest.leave lines window) := by
  intro rest
  refine goesOneWay_of_isLocal rfl (fun _ => isLocal_of_mem_aftermath) rejected.not_handsOver ?_
  intro other also
  rw [also.unique rejected]
  exact ⟨aftermath_calls_of_request _ _ _, rfl, rfl⟩

section Served

variable {host : Host η} {window : Window (Bench η)} {symbol project : String}

/-- Settings may be refused with a fault that is no request error. Nothing is done then. -/
theorem goesOneWay_of_refused {fault : Fault} (givenSymbol : IsGiven (some symbol))
    (givenProject : IsGiven (some project)) (refused : window.world.settings = .error fault)
    (hint : Option String) (lines : List LogLine) :
    let rest := aftermath host window.world.host (.error fault : Except Fault (Option Outcome))
    GoesOneWay host window (some symbol) (some project) hint rest.calls
      (rest.leave lines window) := by
  intro rest
  by_cases request : ∃ error, fault = .request error
  · obtain ⟨error, rfl⟩ := request
    exact goesOneWay_of_rejects (.refused givenSymbol givenProject refused) hint lines
  refine goesOneWay_of_isLocal rfl (fun _ => isLocal_of_mem_aftermath) ?_ ?_
  · rintro other ⟨-, -, holds, -, -⟩
    nomatch refused.symm.trans holds
  · intro error rejected
    cases rejected with
    | missing missing => exact absurd ⟨givenSymbol, givenProject⟩ missing
    | refused _ _ same => exact absurd ⟨error, Except.error.inj (refused.symm.trans same)⟩ request
    | forbidden _ _ holds => nomatch refused.symm.trans holds

/-- A request that is resolved here makes the calls of opening its symbol, and then perhaps tells
of a failure. -/
theorem goesOneWay_of_isHere {settings : Settings} (givenSymbol : IsGiven (some symbol))
    (givenProject : IsGiven (some project)) (holds : window.world.settings = .ok settings)
    (here : IsHere host window.world.host (some project)) (hint : Option String)
    (token : Option (η → Bool)) (lines : List LogLine) :
    let alone := opening host (.ok settings) window.world.host ⟨symbol, hint⟩ token
    let rest := aftermath host alone.2.host alone.1
    GoesOneWay host window (some symbol) (some project) hint (alone.2.calls ++ rest.calls)
      (rest.leave lines { window with
        world := { window.world with
          host := alone.2.host
          calls := window.world.calls ++ alone.2.calls } }) := by
  intro alone rest
  refine goesOneWay_of_isLocal (List.append_assoc _ _ _) ?_ ?_ ?_
  · intro call member
    rcases List.mem_append.mp member with opening | after
    · exact isLocal_of_mem_opening opening
    · exact isLocal_of_mem_aftermath after
  · rintro other ⟨-, -, -, elsewhere, -⟩
    exact elsewhere here
  · intro error rejected
    cases rejected with
    | missing missing => exact absurd ⟨givenSymbol, givenProject⟩ missing
    | refused _ _ refused => nomatch holds.symm.trans refused
    | forbidden _ _ _ _ elsewhere => exact absurd here elsewhere

/-- A request that is handed over is written, its project is opened, and perhaps a failure of
that is told of. -/
theorem goesOneWay_of_handsOver {settings : Settings}
    (hands : HandsOver host window.world.settings window.world.host (some symbol) (some project)
      settings) (hint : Option String) (lines : List LogLine) :
    let request : PendingRequest := ⟨symbol, project, hint⟩
    let newWindow := settings.notOpen == .newWindow
    let opened := (host.openProject project newWindow).start window.world.host
    let rest := aftermath host opened.2 opened.1
    GoesOneWay host window (some symbol) (some project) hint
      (.put Slot.key request.toRecord :: .openProject project newWindow :: rest.calls)
      (rest.leave lines { window with
        world := { window.world with
          host := opened.2
          calls := window.world.calls ++
            [.put Slot.key request.toRecord, .openProject project newWindow]
          values := window.world.values.write Slot.key request.toRecord }
        standing := .saved }) := by
  intro request newWindow opened rest
  have told : rest.calls = [] ∨ ∃ message, rest.calls = [.showError message] :=
    aftermath_calls host opened.2 opened.1
  have own : ∀ call ∈ rest.calls, call.isLocal := fun _ => isLocal_of_mem_aftermath
  refine
    { calls := ?calls, once := ?once, noDeletion := ?noDeletion, writes := ?writes
      hands := ?hands, here := fun here => absurd here hands.elsewhere
      rejects := fun error rejected => absurd hands (rejected.not_handsOver settings) }
  case calls => simp [Aftermath.leave]
  case once =>
    have none : rest.calls.filter Call.isWrite = [] :=
      List.filter_eq_nil_iff.mpr fun call member => not_isWrite_of_isLocal (own call member)
    simp [List.filter_cons, Call.isWrite, none]
  case noDeletion =>
    intro key member
    rcases List.mem_cons.mp member with same | member
    · cases (Call.put.inj same).2
    rcases List.mem_cons.mp member with same | member
    · cases same
    · cases own _ member
  case writes => exact iff_of_true ⟨_, List.mem_cons_self, rfl⟩ ⟨settings, hands⟩
  case hands =>
    intro inForce also
    obtain rfl := Except.ok.inj (hands.holds.symm.trans also.holds)
    exact ⟨symbol, project, rest.calls, rfl, rfl, rfl, told⟩

end Served

/-- A request is handed over, resolved here or rejected, and what is done is all of one kind. It
is written to the store at most once, and exactly when it is handed over; then its project is
opened and nothing is resolved. A request whose project is open here is neither written nor has
its project opened, and a rejected one is told of and changes nothing. -/
theorem request_goes_one_way (host : Host η) (window : Window (Bench η))
    (symbol project hint : Option String) (token : Option (η → Bool)) :
    ∃ made, GoesOneWay host window symbol project hint made
      ((handleRequest (environment host) symbol project hint
        (token.map fun cancelled bench => cancelled bench.host)).start window).2 := by
  by_cases given : IsGiven symbol ∧ IsGiven project
  case neg =>
    obtain ⟨lines, course⟩ := start_handleRequest_of_missing host window hint
      (token.map fun cancelled bench => cancelled bench.host) given
    rw [course]
    exact ⟨_, goesOneWay_of_rejects (.missing given) hint lines⟩
  obtain ⟨givenSymbol, givenProject⟩ := given
  obtain ⟨name, rfl, someName⟩ := id givenSymbol
  obtain ⟨path, rfl, somePath⟩ := id givenProject
  rcases holds : window.world.settings with fault | inForce
  · obtain ⟨lines, course⟩ := start_handleRequest_of_refused host window hint
      (token.map fun cancelled bench => cancelled bench.host) someName somePath holds
    rw [course]
    exact ⟨_, goesOneWay_of_refused givenSymbol givenProject holds hint lines⟩
  by_cases opened : Path.isOpenAmong path (host.roots window.world.host)
  · obtain ⟨lines, course⟩ := start_handleRequest_of_here host window hint token
      someName somePath holds opened
    rw [course]
    exact ⟨_, goesOneWay_of_isHere givenSymbol givenProject holds ⟨path, rfl, opened⟩ hint
      token lines⟩
  have elsewhere : ¬ IsHere host window.world.host (some path) := by
    rintro ⟨same, named, isOpen⟩
    rw [Option.some.inj named] at opened
    exact opened isOpen
  by_cases forbids : inForce.notOpen = .error
  · obtain ⟨lines, course⟩ := start_handleRequest_of_forbidden host window hint
      (token.map fun cancelled bench => cancelled bench.host)
      someName somePath holds opened forbids
    rw [course]
    exact ⟨_, goesOneWay_of_rejects
      (.forbidden givenSymbol givenProject holds rfl elsewhere forbids) hint lines⟩
  · obtain ⟨lines, course⟩ := start_handleRequest_of_elsewhere host window hint
      (token.map fun cancelled bench => cancelled bench.host)
      someName somePath holds opened forbids
    rw [course]
    exact ⟨_, goesOneWay_of_handsOver
      ⟨givenSymbol, givenProject, holds, elsewhere, forbids⟩ hint lines⟩

end SymbolJump.Opener
