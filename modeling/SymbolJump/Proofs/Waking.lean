/-
# The calls that wake the index

Waking the index searches for markers and source files, and loads a file at last if it finds one. It
ends in one of three ways: the index is awake, the last call failed, or a detector has a pattern
that is no text and nothing was called at all. What comes after it, a query and the showing of its
outcome, is reached in the first way only.
-/
import SymbolJump.Proofs.Failures

namespace SymbolJump

open Act

variable {η : Type}

/-- Whether a call searches for files. -/
def Call.isSearch : Call → Bool
  | .findFiles _ _ _ => true
  | _ => false

/-- One more search leaves only searches. -/
theorem isSearch_concat {calls : List Call} (searches : ∀ call ∈ calls, call.isSearch = true)
    (wanted excluded : Value) (limit : Option Int) :
    ∀ call ∈ calls ++ [.findFiles wanted excluded limit], call.isSearch = true :=
  List.forall_mem_append.mpr ⟨searches, List.forall_mem_singleton.mpr rfl⟩

/-- Calls that wake an index: searches, and at most one load, which is the last of them. -/
def Wakes (calls : List Call) : Prop :=
  ∃ searches loads, calls = searches ++ loads ∧ (∀ call ∈ searches, call.isSearch = true) ∧
    (loads = [] ∨ ∃ path, loads = [.load path])

theorem wakes_of_searches {calls : List Call} (searches : ∀ call ∈ calls, call.isSearch = true) :
    Wakes calls :=
  ⟨calls, [], (List.append_nil calls).symm, searches, .inl rfl⟩

theorem wakes_nil : Wakes [] :=
  wakes_of_searches (List.forall_mem_nil _)

/-- A call that wakes an index searches or loads. -/
theorem Wakes.eq_of_mem {calls : List Call} {call : Call} (wakes : Wakes calls)
    (member : call ∈ calls) :
    (∃ wanted excluded limit, call = .findFiles wanted excluded limit) ∨
      ∃ path, call = .load path := by
  obtain ⟨searches, loads, rfl, all, rest⟩ := wakes
  rcases List.mem_append.mp member with search | load
  · cases call with
    | findFiles wanted excluded limit => exact .inl ⟨wanted, excluded, limit, rfl⟩
    | _ => nomatch all _ search
  · rcases rest with rfl | ⟨path, rfl⟩
    · nomatch load
    · exact .inr ⟨path, List.mem_singleton.mp load⟩

/-- A call that fails was made, and failed where it was made. -/
theorem Host.finish_of_failure? {host : Host η} {state : η} {calls : List Call}
    {failure : Failure} (failed : host.failure? state calls = some failure) :
    failure.call ∈ calls ∧
      ∃ before, (host.finish before failure.call).1 = some failure.fault := by
  induction calls generalizing state with
  | nil => nomatch failed
  | cons call rest ih =>
      rw [failure?] at failed
      rcases ended : host.finish state call with ⟨_ | fault, next⟩
      · rw [ended] at failed
        obtain ⟨member, before, raised⟩ := ih failed
        exact ⟨List.mem_cons_of_mem _ member, before, raised⟩
      · rw [ended] at failed
        obtain rfl := Option.some.inj failed
        exact ⟨List.mem_cons_self, state, by rw [ended]⟩

namespace Bench

variable {host : Host η} {start : η}

/-- A bench on which files were searched for, without a failure. -/
structure IsSearching (host : Host η) (start : η) (bench : Bench η) : Prop where
  smooth : IsSmooth host start bench
  searches : ∀ call ∈ bench.calls, call.isSearch = true

/-- A bench on which the index was woken, without a failure. -/
structure IsWoken (host : Host η) (start : η) (bench : Bench η) : Prop where
  smooth : IsSmooth host start bench
  wakes : Wakes bench.calls

/-- A bench on which the last call that should wake the index failed. -/
structure FailedToWake (host : Host η) (start : η) (fault : Fault) (bench : Bench η) : Prop where
  failure : ∃ call, host.failure? start bench.calls = some ⟨call, fault, []⟩
  wakes : Wakes bench.calls

theorem IsSearching.isWoken {bench : Bench η} (searching : IsSearching host start bench) :
    IsWoken host start bench :=
  ⟨searching.smooth, wakes_of_searches searching.searches⟩

/-- After searches, a call is made that leaves the bench smooth or is the last one. -/
theorem meets_after_searches {α : Type} {call : Call} {act : Act η α}
    (same : ∀ state, host.finish state call = act.finish state)
    (silent : call.isMessage = false) :
    Act.Meets (IsSearching host start) (recorded call act)
      (fun _ bench => IsSmooth host start bench ∧
        ∃ searches, bench.calls = searches ++ [call] ∧ ∀ call ∈ searches, call.isSearch = true)
      (fun fault bench => host.failure? start bench.calls = some ⟨call, fault, []⟩ ∧
        ∃ searches, bench.calls = searches ++ [call] ∧
          ∀ call ∈ searches, call.isSearch = true) := by
  intro bench searching
  have ended := meets_recorded same silent searching.smooth
  rw [start_recorded] at ended ⊢
  rcases course : act.start bench.host with ⟨fault | answer, after⟩
  · rw [course] at ended
    exact ⟨ended.failure, bench.calls, rfl, searching.searches⟩
  · rw [course] at ended
    exact ⟨ended, bench.calls, rfl, searching.searches⟩

theorem meets_findFiles (wanted excluded : Value) (limit : Option Int) :
    Act.Meets (IsSearching host start) ((hostOf host).findFiles wanted excluded limit)
      (fun _ => IsSearching host start) (FailedToWake host start) := by
  apply (meets_after_searches (fun _ => rfl) rfl).weaken
  · rintro answer bench ⟨smooth, searches, made, before⟩
    exact ⟨smooth, made ▸ isSearch_concat before _ _ _⟩
  · rintro fault bench ⟨failure, searches, made, before⟩
    exact ⟨⟨_, failure⟩, made ▸ wakes_of_searches (isSearch_concat before _ _ _)⟩

theorem meets_load (path : String) :
    Act.Meets (IsSearching host start) ((hostOf host).load path) (fun _ => IsWoken host start)
      (FailedToWake host start) := by
  apply (meets_after_searches (fun _ => rfl) rfl).weaken
  · rintro answer bench ⟨smooth, searches, made, before⟩
    exact ⟨smooth, searches, [.load path], made, before, .inr ⟨path, rfl⟩⟩
  · rintro fault bench ⟨failure, searches, made, before⟩
    exact ⟨⟨_, failure⟩, searches, [.load path], made, before, .inr ⟨path, rfl⟩⟩

theorem meets_loadFirst (detector : Detector) :
    Act.Meets (IsSearching host start) (Activation.loadFirst (hostOf host) detector)
      (fun _ => IsWoken host start) (FailedToWake host start) := by
  unfold Activation.loadFirst
  refine (meets_findFiles _ _ _).bind fun files => ?_
  cases files with
  | nil => exact meets_pure IsSearching.isWoken
  | cons path others => exact (meets_load path).bind fun _ => meets_pure id

theorem contract : Activation.Contract (IsSearching host start) (IsWoken host start)
    (FailedToWake host start) (hostOf host) where
  findFiles := meets_findFiles
  loadFirst := meets_loadFirst
  idle := IsSearching.isWoken
  logSearching _ _ searching :=
    ⟨⟨searching.smooth.state, searching.smooth.noFailure, searching.smooth.untold⟩,
      searching.searches⟩
  logWoken _ _ woken :=
    ⟨⟨woken.smooth.state, woken.smooth.noFailure, woken.smooth.untold⟩, woken.wakes⟩

/-- A detector that matters has a pattern that is no text. -/
def Misfits (host : Host η) (settings : Settings) (start : η) (misfit : Misfit) : Prop :=
  Detector.anyOpen (host.documents start)
    (Activation.relevant settings.detectors settings.language) = .error misfit

/-- How waking the index ends. -/
inductive WakingEnds (host : Host η) (settings : Settings) (start : η) :
    Except Fault Unit → Bench η → Prop
  | woken {bench : Bench η} (fits : ∀ misfit, ¬ Misfits host settings start misfit)
      (woken : IsWoken host start bench) : WakingEnds host settings start (.ok ()) bench
  | failed {bench : Bench η} {fault : Fault}
      (fits : ∀ misfit, ¬ Misfits host settings start misfit)
      (failed : FailedToWake host start fault bench) :
      WakingEnds host settings start (.error fault) bench
  | misfit {bench : Bench η} {misfit : Misfit} (misfits : Misfits host settings start misfit)
      (same : bench.host = start) (none : bench.calls = []) :
      WakingEnds host settings start (.error (.misfit misfit)) bench

variable (host start) in
theorem wakingEnds (settings : Settings) :
    WakingEnds host settings start (waking host settings start).1
      (waking host settings start).2 := by
  have searching : IsSearching host start { host := start, settings := .ok settings } :=
    ⟨isSmooth_nil _, List.forall_mem_nil _⟩
  have ends {act : Act (Bench η) Unit} (fits : ∀ misfit, ¬ Misfits host settings start misfit)
      (meets : Act.Meets (IsSearching host start) act (fun _ => IsWoken host start)
        (FailedToWake host start)) :
      WakingEnds host settings start (act.start { host := start, settings := .ok settings }).1
        (act.start { host := start, settings := .ok settings }).2 := by
    have ended := meets searching
    rcases course : act.start { host := start, settings := .ok settings } with ⟨fault | done, after⟩
    · rw [course] at ended
      exact .failed fits ended
    · rw [course] at ended
      exact .woken fits ended
  have fits {known : Bool} (read : Detector.anyOpen (host.documents start)
      (Activation.relevant settings.detectors settings.language) = .ok known) (misfit : Misfit) :
      ¬ Misfits host settings start misfit :=
    fun misfits => nomatch misfits.symm.trans read
  have documents : (hostOf host).documents { host := start, settings := .ok settings } =
      host.documents start := rfl
  unfold waking Activation.activate
  rw [start_bind_of_ok (start_get _), documents]
  dsimp only
  split
  · next misfit misfits => exact .misfit misfits rfl rfl
  · next awake =>
    have woken : Act.Meets (IsSearching host start)
        ((hostOf host).debug "source document already open, index assumed active")
        (fun _ => IsWoken host start) (FailedToWake host start) :=
      meets_modify fun searching => contract.logWoken _ searching.isWoken
    exact ends (fits awake) woken
  · next asleep =>
    split
    · exact ends (fits asleep) (contract.activateByMarkers _)
    · split
      · exact ends (fits asleep) (contract.activateFor _ _)
      · exact ends (fits asleep)
          ((meets_modify (contract.logSearching _)).bind fun _ => contract.activateByMarkers _)

theorem waking_eq_ok_iff {settings : Settings} :
    (waking host settings start).1 = .ok () ↔
      host.failure? start (waking host settings start).2.calls = none ∧
        ∀ misfit, ¬ Misfits host settings start misfit := by
  have ends := wakingEnds host start settings
  generalize waking host settings start = course at ends ⊢
  obtain ⟨answer, bench⟩ := course
  cases ends with
  | woken fits woken => exact iff_of_true rfl ⟨woken.smooth.noFailure, fits⟩
  | failed fits failed =>
      obtain ⟨call, failure⟩ := failed.failure
      exact iff_of_false nofun fun awake => nomatch failure.symm.trans awake.1
  | misfit misfits => exact iff_of_false nofun fun awake => awake.2 _ misfits

/-- What is done once the index is awake: a query is resolved, and its outcome shown. -/
def answering (host : Host η) (settings : Settings) (query : Query) (token : Option (η → Bool)) :
    Act (Bench η) Outcome := do
  (hostOf host).info ("resolving symbol: " ++ query.name ++ Opener.hintText query.hint)
  let outcome ← Resolution.resolve (hostOf host) query settings
    (token.map fun cancelled bench => cancelled bench.host)
  Opener.present (environment host) query settings outcome
  return outcome

variable {settings : Settings}

theorem opening_of_woken (query : Query) (token : Option (η → Bool))
    (woken : (waking host settings start).1 = .ok ()) :
    opening host (.ok settings) start query token =
      (answering host settings query token).start (waking host settings start).2 := by
  rw [opening_of_inForce]
  exact start_bind_of_ok (Prod.ext woken rfl) _

theorem opening_of_unwoken (query : Query) (token : Option (η → Bool)) {fault : Fault}
    (failed : (waking host settings start).1 = .error fault) :
    opening host (.ok settings) start query token =
      (.error fault, (waking host settings start).2) := by
  rw [opening_of_inForce]
  exact start_bind_of_error (Prod.ext failed rfl) _

end Bench

end SymbolJump
