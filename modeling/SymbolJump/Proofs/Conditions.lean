/-
# What holds along a run

An act meets a contract when, from any state that fulfils a precondition, it ends with an answer
in a state that fulfils one condition, or with a fault in a state that fulfils another. What was
done before a fault stays done, so what a fault leaves behind is a condition in its own right.

A run that opens a symbol is made of the operations of its host. As long as each of them keeps a
condition that holds so far, the whole run keeps it; and where one ends with a fault, the run ends
there. Faults of the index and the picker are taken as errors of the request on their way out,
so they have a condition of their own until then.
-/
import SymbolJump.Proofs.Settling

namespace SymbolJump

namespace Act

variable {σ α β : Type}

/-- From a state that fulfils a precondition, an act ends with an answer that fulfils one
condition, or with a fault that fulfils another. -/
def Meets (pre : σ → Prop) (act : Act σ α) (post : α → σ → Prop) (broken : Fault → σ → Prop) :
    Prop :=
  ∀ ⦃state⦄, pre state →
    match act.start state with
    | (.ok answer, after) => post answer after
    | (.error fault, after) => broken fault after

variable {pre : σ → Prop} {post : α → σ → Prop} {broken : Fault → σ → Prop}

theorem meets_pure {answer : α} (holds : ∀ {state}, pre state → post answer state) :
    Meets pre (pure answer) post broken :=
  fun _ here => holds here

theorem meets_throw {fault : Fault} (holds : ∀ {state}, pre state → broken fault state) :
    Meets pre (throw fault : Act σ α) post broken :=
  fun _ here => holds here

/-- Every act meets a contract that asks nothing of it. -/
theorem meets_anything (act : Act σ α) : Meets pre act (fun _ _ => True) (fun _ _ => True) := by
  intro state _
  rcases act.start state with ⟨fault | answer, after⟩
  · trivial
  · trivial

theorem meets_modify {change : σ → σ} {post : Unit → σ → Prop}
    (holds : ∀ {state}, pre state → post () (change state)) :
    Meets pre (modify change : Act σ Unit) post broken :=
  fun _ here => holds here

theorem meets_get_bind {next : σ → Act σ α}
    (rest : ∀ {state}, pre state → Meets pre (next state) post broken) :
    Meets pre (get >>= next) post broken := by
  intro state here
  rw [start_bind_of_ok (start_get state)]
  exact rest here here

theorem Meets.bind {first : Act σ α} {next : α → Act σ β} {middle : α → σ → Prop}
    {post : β → σ → Prop} (meets : Meets pre first middle broken)
    (rest : ∀ answer, Meets (middle answer) (next answer) post broken) :
    Meets pre (first >>= next) post broken := by
  intro state here
  have begun := meets here
  rw [start_bind]
  rcases course : first.start state with ⟨fault | answer, after⟩
  · rw [course] at begun
    exact begun
  · rw [course] at begun
    exact rest answer begun

theorem Meets.tryCatch {act : Act σ α} {handler : Fault → Act σ α} {raised : Fault → σ → Prop}
    (meets : Meets pre act post raised)
    (rest : ∀ fault, Meets (raised fault) (handler fault) post broken) :
    Meets pre (MonadExcept.tryCatch act handler) post broken := by
  intro state here
  have begun := meets here
  rw [start_tryCatch]
  rcases course : act.start state with ⟨fault | answer, after⟩
  · rw [course] at begun
    exact rest fault begun
  · rw [course] at begun
    exact begun

theorem Meets.weaken {act : Act σ α} {other : α → σ → Prop} {raised : Fault → σ → Prop}
    (meets : Meets pre act other raised)
    (answers : ∀ {answer state}, other answer state → post answer state)
    (faults : ∀ {fault state}, raised fault state → broken fault state) :
    Meets pre act post broken := by
  intro state here
  have ended := meets here
  rcases course : act.start state with ⟨fault | answer, after⟩
  · rw [course] at ended
    exact faults ended
  · rw [course] at ended
    exact answers ended

end Act

open Act

variable {σ : Type}

namespace Activation

/-- What is asked of the parts of waking an index: a search leaves it as it should be before it is
woken, a search for a source file that is loaded wakes it, and so does nothing at all. -/
structure Contract (searching woken : σ → Prop) (broken : Fault → σ → Prop) (host : Host σ) :
    Prop where
  findFiles : ∀ wanted excluded limit,
    Act.Meets searching (host.findFiles wanted excluded limit) (fun _ => searching) broken
  loadFirst : ∀ detector,
    Act.Meets searching (Activation.loadFirst host detector) (fun _ => woken) broken
  idle : ∀ {state}, searching state → woken state
  logSearching : ∀ line {state}, searching state → searching (host.log line state)
  logWoken : ∀ line {state}, woken state → woken (host.log line state)

namespace Contract

variable {searching woken : σ → Prop} {broken : Fault → σ → Prop} {host : Host σ}
  (contract : Contract searching woken broken host)
include contract

theorem activateFor (language : Value) (detector : Detector) :
    Act.Meets searching (Activation.activateFor host language detector) (fun _ => woken)
      broken := by
  unfold Activation.activateFor
  refine (contract.loadFirst detector).bind fun loaded => ?_
  cases loaded with
  | none => exact meets_pure id
  | some path => exact meets_modify (contract.logWoken _)

/-- Markers are searched for until one is found, and after its source file nothing is called. -/
theorem activateByMarkers (markers : List (Value × Detector)) :
    Act.Meets searching (Activation.activateByMarkers host markers) (fun _ => woken) broken := by
  induction markers with
  | nil => exact meets_pure contract.idle
  | cons entry rest ih =>
      obtain ⟨marker, detector⟩ := entry
      unfold Activation.activateByMarkers
      refine (contract.findFiles _ _ _).bind fun files => ?_
      cases files with
      | nil => exact ih
      | cons path others =>
          refine (contract.loadFirst detector).bind fun loaded => ?_
          cases loaded with
          | none => exact meets_pure id
          | some path => exact meets_modify (contract.logWoken _)

theorem activate (misfits : ∀ {misfit state}, searching state → broken (.misfit misfit) state)
    (detectors : List Detector) (language : Option Value) :
    Act.Meets searching (Activation.activate host detectors language) (fun _ => woken) broken := by
  unfold Activation.activate
  refine meets_get_bind fun {state} _ => ?_
  dsimp only
  split
  · exact meets_throw misfits
  · exact meets_modify fun searching => contract.logWoken _ (contract.idle searching)
  · cases language with
    | none => exact contract.activateByMarkers _
    | some language =>
        dsimp only
        cases detectors.find? (·.isFor language) with
        | some detector => exact contract.activateFor language detector
        | none =>
            exact (meets_modify (contract.logSearching _)).bind fun _ =>
              contract.activateByMarkers _

end Contract

end Activation

/-- What is asked of the operations of a host: as long as things are fine they stay so, a fault
of the index or the picker and any other fault leave what they should, and the outcome may be
shown. -/
structure Host.Meets (fine shown : σ → Prop) (asked broken : Fault → σ → Prop)
    (host : Host σ) : Prop where
  query : ∀ text, Act.Meets fine (host.query text) (fun _ => fine) asked
  pick : ∀ prompt candidates,
    Act.Meets fine (host.pick prompt candidates) (fun _ => fine) asked
  findFiles : ∀ wanted excluded limit,
    Act.Meets fine (host.findFiles wanted excluded limit) (fun _ => fine) broken
  load : ∀ path, Act.Meets fine (host.load path) (fun _ => fine) broken
  wait : ∀ milliseconds, Act.Meets fine (host.wait milliseconds) (fun _ => fine) broken
  reveal : ∀ location, Act.Meets fine (host.reveal location) (fun _ => shown) broken
  openSearch : ∀ text, Act.Meets fine (host.openSearch text) (fun _ => shown) broken
  showError : ∀ message, Act.Meets fine (host.showError message) (fun _ => shown) broken
  log : ∀ line {state}, fine state → fine (host.log line state)
  silent : ∀ {state}, fine state → shown state
  /-- A fault of the index or the picker is passed on as an error of the request. -/
  passed : ∀ {fault state}, asked fault state →
    broken (.request (Resolution.asRequestError fault)) state
  /-- The engine has faults of its own, none of which is an error of a request. -/
  own : ∀ {fault state}, (∀ error, fault ≠ .request error) → fine state → broken fault state

namespace Host.Meets

variable {fine shown : σ → Prop} {asked broken : Fault → σ → Prop} {host : Host σ}
  (meets : Host.Meets fine shown asked broken host)
include meets

theorem debug {raised : Fault → σ → Prop} (message : String) :
    Act.Meets fine (host.debug message) (fun _ => fine) raised :=
  meets_modify (meets.log _)

theorem info {raised : Fault → σ → Prop} (message : String) :
    Act.Meets fine (host.info message) (fun _ => fine) raised :=
  meets_modify (meets.log _)

theorem loadFirst (detector : Detector) :
    Act.Meets fine (Activation.loadFirst host detector) (fun _ => fine) broken := by
  unfold Activation.loadFirst
  refine (meets.findFiles _ _ _).bind fun files => ?_
  cases files with
  | nil => exact meets_pure id
  | cons path others => exact (meets.load path).bind fun _ => meets_pure id

theorem activate (detectors : List Detector) (language : Option Value) :
    Act.Meets fine (Activation.activate host detectors language) (fun _ => fine) broken :=
  Activation.Contract.activate ⟨meets.findFiles, meets.loadFirst, id, meets.log, meets.log⟩
    (meets.own nofun) detectors language

theorem pickOne (prompt : String) (candidates : List Candidate) :
    Act.Meets fine (Choice.pick host prompt candidates) (fun _ => fine) asked := by
  unfold Choice.pick
  refine (meets.pick prompt candidates).bind fun picked => ?_
  cases picked with
  | some candidate => exact meets_pure id
  | none => exact (meets.debug _).bind fun _ => meets_pure id

theorem select (priority : Priority) (policy : ManyPolicy) {candidates : List Candidate}
    (some : candidates ≠ []) :
    Act.Meets fine (Choice.select host priority policy candidates) (fun _ => fine) asked := by
  have perm := Choice.sortByPriority_perm priority candidates
  unfold Choice.select
  rcases sorted : Choice.sortByPriority priority candidates with _ | ⟨top, _ | ⟨next, others⟩⟩
  · rw [sorted] at perm
    exact absurd perm.nil_eq.symm some
  · exact meets_pure id
  cases policy with
  | first => exact meets_pure id
  | pick => exact meets.pickOne _ _
  | byRoot => exact meets_get_bind fun _ => meets_pure id

theorem askFirst (spellings : List String) :
    Act.Meets fine (Resolution.askFirst host spellings) (fun _ => fine) asked := by
  induction spellings with
  | nil => exact meets_pure id
  | cons spelling rest ih =>
      unfold Resolution.askFirst
      refine (meets.query spelling).bind fun answer => (meets.debug _).bind fun _ => ?_
      split
      · exact ih
      · exact meets_pure id

theorem settle (query : Query) (admitted : Option (List Kind)) (priority : Priority)
    (policy : ManyPolicy) (symbols : List Candidate) :
    Act.Meets fine (Resolution.settle host query admitted priority policy symbols)
      (fun _ => fine) asked := by
  unfold Resolution.settle
  dsimp only
  split
  · next given =>
      refine meets.select priority policy ?_
      simpa using given
  split
  · exact (meets.debug _).bind fun _ => meets.pickOne _ _
  · exact (meets.debug _).bind fun _ => meets_pure id

theorem round (query : Query) (admitted : Option (List Kind)) (priority : Priority)
    (policy : ManyPolicy) :
    Act.Meets fine (Resolution.round host query admitted priority policy) (fun _ => fine)
      asked := by
  unfold Resolution.round
  refine (meets.askFirst _).bind fun symbols => ?_
  split
  · exact meets_pure id
  · exact (meets.debug _).bind fun _ =>
      (meets.settle query admitted priority policy symbols).bind fun _ => meets_pure id

theorem pause (settings : Settings) :
    Act.Meets fine (Resolution.pause host settings) (fun _ => fine) broken := by
  unfold Resolution.pause
  split
  · exact meets.wait _
  · exact meets_throw (meets.own nofun)

theorem rounds (query : Query) (admitted : Option (List Kind)) (priority : Priority)
    (settings : Settings) (token : Option (σ → Bool)) (number left : Nat) :
    Act.Meets fine (Resolution.rounds host query admitted priority settings token number left)
      (fun _ => fine) broken := by
  induction left generalizing number with
  | zero => exact meets_pure id
  | succ left ih =>
      unfold Resolution.rounds
      refine meets_get_bind fun {state} _ => ?_
      dsimp only
      split
      · exact (meets.debug _).bind fun _ => meets_pure id
      refine (meets.debug _).bind fun _ => ?_
      refine ((meets.round query admitted priority settings.many).tryCatch
        fun fault => meets_throw meets.passed).bind fun outcome => ?_
      cases outcome with
      | some outcome => exact meets_pure id
      | none =>
          dsimp only
          split
          · exact (meets.pause settings).bind fun _ => ih (number + 1)
          · exact ih (number + 1)

theorem present {env : Environment σ} (same : env.host = host) (query : Query)
    (settings : Settings) (outcome : Outcome) :
    Act.Meets fine (Opener.present env query settings outcome) (fun _ => shown) broken := by
  subst same
  unfold Opener.present
  cases outcome with
  | found candidate =>
      dsimp only
      cases Opener.lineText? candidate.location.line with
      | some line => exact (meets.info _).bind fun _ => meets.reveal _
      | none => exact meets.reveal _
  | cancelled => exact (meets.info _).weaken meets.silent id
  | notFound =>
      dsimp only
      cases settings.notFound with
      | search => exact (meets.info _).bind fun _ => meets.openSearch _
      | error => exact (meets.info _).bind fun _ => meets.showError _

end Host.Meets

end SymbolJump
