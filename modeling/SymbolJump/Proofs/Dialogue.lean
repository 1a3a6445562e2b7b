/-
# Runs as dialogues

A recording of calls does not tell what was answered. A dialogue does: it keeps every call
together with the reply to it and the state that the host was left in. What a query does can then
be stated about the dialogue it leads, with the answers of the index at hand, and a run from a
later point of a dialogue says the same as one that begins there.
-/
import SymbolJump.Proofs.Benches

namespace SymbolJump

open Act

variable {η α : Type}

/-- What a host replies to a call. -/
inductive Reply
  | symbols (answer : Option (List Candidate))
  | files (paths : List String)
  | choice (picked : Option Candidate)
  | done
  | failed (fault : Fault)
deriving DecidableEq

/-- The reply that an act ends with. -/
def Reply.of (reply : α → Reply) : Except Fault α → Reply
  | .ok answer => reply answer
  | .error fault => .failed fault

/-- A call, the reply to it, and the state that it leaves the host in. -/
structure Exchange (η : Type) where
  call : Call
  reply : Reply
  after : η
deriving DecidableEq

/-- Whether an exchange is a question to the index. -/
def Exchange.isQuery (exchange : Exchange η) : Bool :=
  match exchange.call with
  | .query _ => true
  | _ => false

/-- A question to the index and the symbols it is answered with. No answer is an empty one. -/
def Exchange.Answers (exchange : Exchange η) (text : String) (symbols : List Candidate) : Prop :=
  exchange.call = .query text ∧
    ∃ answer, exchange.reply = .symbols answer ∧ answer.getD [] = symbols

theorem Exchange.Answers.isQuery {exchange : Exchange η} {text : String}
    {symbols : List Candidate} (answered : exchange.Answers text symbols) :
    exchange.isQuery = true := by
  rw [Exchange.isQuery, answered.1]

/-- A question has one answer. -/
theorem Exchange.Answers.unique {exchange : Exchange η} {text other : String}
    {symbols others : List Candidate} (first : exchange.Answers text symbols)
    (second : exchange.Answers other others) : symbols = others := by
  obtain ⟨-, answer, replied, rfl⟩ := first
  obtain ⟨-, answer', replied', rfl⟩ := second
  rw [Reply.symbols.inj (replied.symm.trans replied')]

/-- A host and what was said with it. -/
structure Dialogue (η : Type) where
  host : η
  exchanges : List (Exchange η) := []

namespace Dialogue

/-- The state of a host after exchanges. -/
def stateAfter (start : η) (exchanges : List (Exchange η)) : η :=
  exchanges.foldl (fun _ exchange => exchange.after) start

/-- A dialogue that goes on. -/
def extend (dialogue : Dialogue η) (exchanges : List (Exchange η)) : Dialogue η where
  host := stateAfter dialogue.host exchanges
  exchanges := dialogue.exchanges ++ exchanges

@[simp]
theorem extend_nil (dialogue : Dialogue η) : dialogue.extend [] = dialogue := by
  simp [extend, stateAfter]

@[simp]
theorem extend_extend (dialogue : Dialogue η) (first second : List (Exchange η)) :
    (dialogue.extend first).extend second = dialogue.extend (first ++ second) := by
  simp [extend, stateAfter]

/-- The exchange that an act of the host is. -/
def exchangeOf (call : Call) (reply : α → Reply) (act : Act η α) (state : η) : Exchange η where
  call := call
  reply := .of reply (act.start state).1
  after := (act.start state).2

/-- An act of the host as part of a dialogue. -/
def said (call : Call) (reply : α → Reply) (act : Act η α) : Act (Dialogue η) α :=
  ofCourse fun dialogue =>
    ((act.start dialogue.host).1, dialogue.extend [exchangeOf call reply act dialogue.host])

/-- A host in a dialogue. Its log is not part of it. -/
def hostOf (host : Host η) : Host (Dialogue η) where
  query text := said (.query text) .symbols (host.query text)
  findFiles wanted excluded limit :=
    said (.findFiles wanted excluded limit) .files (host.findFiles wanted excluded limit)
  load path := said (.load path) (fun _ => .done) (host.load path)
  pick prompt candidates := said (.pick prompt candidates) .choice (host.pick prompt candidates)
  openProject path newWindow :=
    said (.openProject path newWindow) (fun _ => .done) (host.openProject path newWindow)
  showError message := said (.showError message) (fun _ => .done) (host.showError message)
  reveal location := said (.reveal location) (fun _ => .done) (host.reveal location)
  openSearch text := said (.openSearch text) (fun _ => .done) (host.openSearch text)
  wait milliseconds := said (.wait milliseconds) (fun _ => .done) (host.wait milliseconds)
  roots dialogue := host.roots dialogue.host
  documents dialogue := host.documents dialogue.host
  log _ dialogue := dialogue

theorem start_said (call : Call) (reply : α → Reply) (act : Act η α) (dialogue : Dialogue η) :
    (said call reply act).start dialogue =
      ((act.start dialogue.host).1,
        dialogue.extend [exchangeOf call reply act dialogue.host]) := rfl

theorem start_query (host : Host η) (text : String) (dialogue : Dialogue η) :
    ((hostOf host).query text).start dialogue =
      (((host.query text).start dialogue.host).1,
        dialogue.extend [exchangeOf (.query text) .symbols (host.query text) dialogue.host]) := rfl

theorem start_pick (host : Host η) (prompt : String) (candidates : List Candidate)
    (dialogue : Dialogue η) :
    ((hostOf host).pick prompt candidates).start dialogue =
      (((host.pick prompt candidates).start dialogue.host).1,
        dialogue.extend [exchangeOf (.pick prompt candidates) .choice
          (host.pick prompt candidates) dialogue.host]) := rfl

theorem start_wait (host : Host η) (milliseconds : Nat) (dialogue : Dialogue η) :
    ((hostOf host).wait milliseconds).start dialogue =
      (((host.wait milliseconds).start dialogue.host).1,
        dialogue.extend [exchangeOf (.wait milliseconds) (fun _ => .done)
          (host.wait milliseconds) dialogue.host]) := rfl

@[simp]
theorem start_debug (host : Host η) (message : String) (dialogue : Dialogue η) :
    ((hostOf host).debug message).start dialogue = (.ok (), dialogue) := rfl

/-- The dialogue of resolving a query. -/
def resolving (host : Host η) (start : η) (query : Query) (settings : Settings)
    (token : Option (η → Bool)) : Except Fault Outcome × Dialogue η :=
  (Resolution.resolve (hostOf host) query settings
    (token.map fun cancelled dialogue => cancelled dialogue.host)).start { host := start }

/-- A dialogue and the part of it that came after another one. -/
structure Continues (origin whole part : Dialogue η) : Prop where
  host : whole.host = part.host
  exchanges : whole.exchanges = origin.exchanges ++ part.exchanges
  state : part.host = stateAfter origin.host part.exchanges

theorem Continues.eq_extend {origin whole part : Dialogue η}
    (continued : Continues origin whole part) : whole = origin.extend part.exchanges := by
  obtain ⟨host, exchanges, state⟩ := continued
  rw [extend, ← exchanges, ← state, ← host]

theorem said_simulates (origin : Dialogue η) (call : Call) (reply : α → Reply) (act : Act η α) :
    Act.Simulates (Continues origin) (said call reply act) (said call reply act) := by
  intro whole part continued
  rw [start_said, start_said, continued.host]
  refine ⟨rfl, ⟨rfl, ?_, ?_⟩⟩
  · simp [extend, continued.exchanges]
  · simp [extend, stateAfter]

theorem hostOf_simulates (host : Host η) (origin : Dialogue η) :
    Host.Simulates (Continues origin) (hostOf host) (hostOf host) where
  query _ := said_simulates origin _ _ _
  findFiles _ _ _ := said_simulates origin _ _ _
  load _ := said_simulates origin _ _ _
  pick _ _ := said_simulates origin _ _ _
  showError _ := said_simulates origin _ _ _
  reveal _ := said_simulates origin _ _ _
  openSearch _ := said_simulates origin _ _ _
  wait _ := said_simulates origin _ _ _
  roots continued := congrArg host.roots continued.host
  documents continued := congrArg host.documents continued.host
  log _ _ _ _ continued := continued

/-- A simulating act goes on from any dialogue as it would begin one. -/
theorem start_eq_extend {act : Act (Dialogue η) α} (dialogue : Dialogue η)
    (simulates : Act.Simulates (Continues dialogue) act act) :
    act.start dialogue =
      ((act.start { host := dialogue.host }).1,
        dialogue.extend (act.start { host := dialogue.host }).2.exchanges) := by
  have begun : Continues dialogue dialogue { host := dialogue.host } :=
    ⟨rfl, (List.append_nil _).symm, rfl⟩
  obtain ⟨answers, continued⟩ := simulates begun
  rw [← answers, ← continued.eq_extend]

/-- A bench on which the calls of a dialogue were made. -/
structure Records (bench : Bench η) (dialogue : Dialogue η) : Prop where
  host : bench.host = dialogue.host
  calls : bench.calls = dialogue.exchanges.map Exchange.call

theorem recorded_simulates (call : Call) (reply : α → Reply) (act : Act η α) :
    Act.Simulates Records (Bench.recorded call act) (said call reply act) := by
  intro bench dialogue recorded
  rw [Bench.start_recorded, start_said, recorded.host]
  refine ⟨rfl, ⟨rfl, ?_⟩⟩
  simp [extend, recorded.calls, exchangeOf]

theorem bench_simulates (host : Host η) :
    Host.Simulates Records (Bench.hostOf host) (hostOf host) where
  query _ := recorded_simulates _ _ _
  findFiles _ _ _ := recorded_simulates _ _ _
  load _ := recorded_simulates _ _ _
  pick _ _ := recorded_simulates _ _ _
  showError _ := recorded_simulates _ _ _
  reveal _ := recorded_simulates _ _ _
  openSearch _ := recorded_simulates _ _ _
  wait _ := recorded_simulates _ _ _
  roots recorded := congrArg host.roots recorded.host
  documents recorded := congrArg host.documents recorded.host
  log _ _ _ _ recorded := ⟨recorded.host, recorded.calls⟩

end Dialogue

end SymbolJump
