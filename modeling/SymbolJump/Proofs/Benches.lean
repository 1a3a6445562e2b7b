/-
# Runs on benches

On a bench everything a run does is on record, so a statement about calls is a statement about
the record it leaves. What an opener does there to one window is given case by case, as an
equation for the course of each of its acts.

A run that opens a symbol does not look at the record, so its course from any bench is known
from its course on a bench where nothing has happened yet: it makes the same calls, gives the
same answer, leaves the host in the same state, and touches neither the store nor the settings.
-/
import SymbolJump.Proofs.Alike
import SymbolJump.Session

namespace SymbolJump

open Act

/-- A call that concerns one instance alone: it neither writes to the store that instances share
nor opens a project in an instance. -/
def Call.isLocal : Call → Bool
  | .put _ _ | .openProject _ _ => false
  | _ => true

namespace Bench

variable {η α : Type}

@[simp]
theorem start_recorded (call : Call) (act : Act η α) (bench : Bench η) :
    (recorded call act).start bench =
      ((act.start bench.host).1,
       { bench with host := (act.start bench.host).2, calls := bench.calls ++ [call] }) := rfl

@[simp]
theorem start_loadSettings (bench : Bench η) :
    loadSettings.start bench = (bench.settings, bench) := rfl

@[simp]
theorem start_put (key : String) (value : Json) (bench : Bench η) :
    (store.put key value).start bench =
      (.ok (), { bench with
        calls := bench.calls ++ [.put key value]
        values := bench.values.write key value }) := rfl

@[simp]
theorem start_store_get (key : String) (bench : Bench η) :
    (store.get key).start bench = (.ok (bench.values.getOrNull key), bench) := rfl

/-- A bench that another has become by calls of its own instance, where the second bench has
made the same calls with nothing before them. -/
structure Extends (origin bench alone : Bench η) : Prop where
  host : bench.host = alone.host
  settings : bench.settings = origin.settings
  settings_alone : alone.settings = origin.settings
  values : bench.values = origin.values
  calls : bench.calls = origin.calls ++ alone.calls
  isLocal : ∀ call ∈ alone.calls, call.isLocal

theorem Extends.eq_origin {origin bench alone : Bench η} (extended : Extends origin bench alone) :
    bench = { origin with
      host := alone.host
      calls := origin.calls ++ alone.calls
      lines := bench.lines } := by
  obtain ⟨host, settings, _, values, calls, _⟩ := extended
  rw [← host, ← calls, ← values, ← settings]

theorem recorded_simulates (origin : Bench η) {call : Call} (here : call.isLocal)
    (act : Act η α) :
    Act.Simulates (Extends origin) (recorded call act) (recorded call act) := by
  intro bench alone extended
  rw [start_recorded, start_recorded, extended.host]
  refine ⟨rfl, ⟨rfl, extended.settings, extended.settings_alone, extended.values, ?_, ?_⟩⟩
  · simp [extended.calls]
  · intro made member
    rcases List.mem_append.mp member with before | now
    · exact extended.isLocal made before
    · rw [List.mem_singleton.mp now]
      exact here

theorem hostOf_simulates (host : Host η) (origin : Bench η) :
    Host.Simulates (Extends origin) (hostOf host) (hostOf host) where
  query _ := recorded_simulates origin rfl _
  findFiles _ _ _ := recorded_simulates origin rfl _
  load _ := recorded_simulates origin rfl _
  pick _ _ := recorded_simulates origin rfl _
  showError _ := recorded_simulates origin rfl _
  reveal _ := recorded_simulates origin rfl _
  openSearch _ := recorded_simulates origin rfl _
  wait _ := recorded_simulates origin rfl _
  roots extended := congrArg host.roots extended.host
  documents extended := congrArg host.documents extended.host
  log _ _ _ _ extended :=
    ⟨extended.host, extended.settings, extended.settings_alone, extended.values, extended.calls,
      extended.isLocal⟩

theorem environment_simulates (host : Host η) (origin : Bench η) :
    Environment.Simulates (Extends origin) (environment host) (environment host) where
  host := hostOf_simulates host origin
  settings := by
    intro bench alone extended
    show (loadSettings.start bench).1 = (loadSettings.start alone).1 ∧ _
    rw [start_loadSettings, start_loadSettings]
    exact ⟨extended.settings.trans extended.settings_alone.symm, extended⟩

/-- The run that opens a symbol, on a bench where nothing has happened yet. -/
def opening (host : Host η) (settings : Except Fault Settings) (start : η) (query : Query)
    (token : Option (η → Bool)) : Except Fault Outcome × Bench η :=
  (Opener.openSymbol (environment host) query
    (token.map fun cancelled bench => cancelled bench.host)).start { host := start, settings }

/-- Opening a symbol goes on any bench as it goes on an empty one, and leaves the store and the
settings as they are. -/
theorem start_openSymbol (host : Host η) (query : Query) (token : Option (η → Bool))
    (bench : Bench η) :
    let course := (Opener.openSymbol (environment host) query
      (token.map fun cancelled bench => cancelled bench.host)).start bench
    let alone := opening host bench.settings bench.host query token
    course.1 = alone.1 ∧ Extends bench course.2 alone.2 := by
  refine (environment_simulates host bench).openSymbol (Query.Alike.refl query) _ _
    (fun {s t} here => ?_)
    ⟨rfl, rfl, rfl, rfl, (List.append_nil _).symm, fun _ member => nomatch member⟩
  cases token with
  | none => rfl
  | some cancelled => exact congrArg cancelled here.host

/-- Queries that ask the same are opened in the same way. -/
theorem opening_alike (host : Host η) (settings : Except Fault Settings) (start : η)
    {query other : Query} (same : query.Alike other) :
    let first := opening host settings start query none
    let second := opening host settings start other none
    first.1 = second.1 ∧ first.2.host = second.2.host ∧ first.2.calls = second.2.calls := by
  have nothing : Extends { host := start, settings } { host := start, settings : Bench η }
      { host := start, settings } :=
    ⟨rfl, rfl, rfl, rfl, rfl, fun _ member => nomatch member⟩
  obtain ⟨answers, extended⟩ := (environment_simulates host _).openSymbol same
    none none (fun _ => rfl) nothing
  exact ⟨answers, extended.host, extended.calls⟩

theorem isLocal_of_mem_opening {host : Host η} {settings : Except Fault Settings} {start : η}
    {query : Query} {token : Option (η → Bool)} {call : Call}
    (made : call ∈ (opening host settings start query token).2.calls) : call.isLocal :=
  (start_openSymbol host query token { host := start, settings }).2.isLocal call made

end Bench

/-- A host that answers from a script: the index gives the next answer of a list, and the picker
takes the first candidate that it shows. Nothing it does fails. -/
structure Script where
  answers : List (Option (List Candidate)) := []
  roots : List String := []
deriving DecidableEq

namespace Script

/-- The operations of a host with a script. -/
def host : Host Script where
  query _ := ofCourse fun script =>
    (.ok script.answers.head?.join, { script with answers := script.answers.tail })
  findFiles _ _ _ := pure []
  load _ := pure ()
  pick _ candidates := pure candidates.head?
  openProject _ _ := pure ()
  showError _ := pure ()
  reveal _ := pure ()
  openSearch _ := pure ()
  wait _ := pure ()
  roots script := script.roots
  documents _ := []
  log _ script := script

/-- Settings with which the behaviour of runs can be tried out. -/
def settings : Settings where
  language := none
  many := .pick
  notOpen := .newWindow
  notFound := .search
  retryCount := 2
  retryInterval := 500
  detectors := []
  logLevel := .info
  priority := ["Class", "Function"]
  editorCommand := "code"

theorem names : ∀ name ∈ settings.priority, ∃ kind : Kind, kind.name = name := by
  intro name member
  rcases List.mem_cons.mp member with rfl | member
  · exact ⟨.classType, rfl⟩
  · rw [List.mem_singleton.mp member]
    exact ⟨.function, rfl⟩

end Script

end SymbolJump
