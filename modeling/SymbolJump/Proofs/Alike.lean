/-
# Hosts that cannot be told apart

What a query does is settled by the answers of its host. When the operations of two hosts
simulate each other along a relation between their states, so do the runs of every query on
them: the engine looks at a host through its operations alone. Opening a project is not asked
about, since no part of resolving a query does that. The log may say anything: no relation here
looks at it, so two queries need not be equal but only ask the same.

The use of this is that a relation need only be checked operation by operation. One theorem,
`Environment.Simulates.openSymbol`, then covers what a run keeps unchanged, what it may call,
and that recordings with different pasts go the same way.
-/
import SymbolJump.Opener
import SymbolJump.Proofs.Courses

namespace SymbolJump

open Act

variable {σ τ : Type}

/-- Two queries that ask the same: an empty hint is none. -/
structure Query.Alike (query other : Query) : Prop where
  name : query.name = other.name
  hint : query.hint.getD "" = other.hint.getD ""

namespace Query

theorem Alike.refl (query : Query) : query.Alike query := ⟨rfl, rfl⟩

variable {query other : Query}

theorem Alike.ofHint (same : query.Alike other) :
    Kind.ofHint query.hint = Kind.ofHint other.hint := by
  have filled (hint : Option String) : Kind.ofHint hint = Kind.ofHint (some (hint.getD "")) := by
    cases hint <;> rfl
  rw [filled, same.hint, ← filled]

theorem Alike.notFoundMessage (same : query.Alike other) :
    query.notFoundMessage = other.notFoundMessage := by
  have filled (query : Query) : query.notFoundMessage =
      Query.notFoundMessage ⟨query.name, some (query.hint.getD "")⟩ := by
    rcases query with ⟨name, _ | hint⟩ <;> rfl
  rw [filled, same.name, same.hint, ← filled]

end Query

/-- Two hosts whose operations simulate each other, as far as resolving a query goes. -/
structure Host.Simulates (related : σ → τ → Prop) (first : Host σ) (second : Host τ) : Prop where
  query : ∀ text, Act.Simulates related (first.query text) (second.query text)
  findFiles : ∀ wanted excluded limit,
    Act.Simulates related (first.findFiles wanted excluded limit)
      (second.findFiles wanted excluded limit)
  load : ∀ path, Act.Simulates related (first.load path) (second.load path)
  pick : ∀ prompt candidates,
    Act.Simulates related (first.pick prompt candidates) (second.pick prompt candidates)
  showError : ∀ message, Act.Simulates related (first.showError message) (second.showError message)
  reveal : ∀ location, Act.Simulates related (first.reveal location) (second.reveal location)
  openSearch : ∀ text, Act.Simulates related (first.openSearch text) (second.openSearch text)
  wait : ∀ milliseconds,
    Act.Simulates related (first.wait milliseconds) (second.wait milliseconds)
  roots : ∀ {s t}, related s t → first.roots s = second.roots t
  documents : ∀ {s t}, related s t → first.documents s = second.documents t
  log : ∀ line other {s t}, related s t → related (first.log line s) (second.log other t)

/-- Two environments that cannot be told apart while a query is resolved. The store is not
asked about: it is not used for that. -/
structure Environment.Simulates (related : σ → τ → Prop) (first : Environment σ)
    (second : Environment τ) : Prop where
  host : Host.Simulates related first.host second.host
  settings : Act.Simulates related first.settings second.settings

namespace Host.Simulates

variable {related : σ → τ → Prop} {first : Host σ} {second : Host τ}
  (alike : Host.Simulates related first second)
include alike

theorem debug (message other : String) :
    Act.Simulates related (first.debug message) (second.debug other) :=
  simulates_modify (alike.log _ _)

theorem info (message other : String) :
    Act.Simulates related (first.info message) (second.info other) :=
  simulates_modify (alike.log _ _)

theorem error (message other : String) :
    Act.Simulates related (first.error message) (second.error other) :=
  simulates_modify (alike.log _ _)

theorem loadFirst (detector : Detector) :
    Act.Simulates related (Activation.loadFirst first detector)
      (Activation.loadFirst second detector) := by
  unfold Activation.loadFirst
  refine (alike.findFiles _ _ _).bind fun files => ?_
  cases files with
  | nil => exact simulates_pure none
  | cons path others => exact (alike.load path).bind fun _ => simulates_pure _

theorem activateFor (language : Value) (detector : Detector) :
    Act.Simulates related (Activation.activateFor first language detector)
      (Activation.activateFor second language detector) := by
  unfold Activation.activateFor
  refine (alike.loadFirst detector).bind fun loaded => ?_
  cases loaded with
  | none => exact simulates_pure ()
  | some path => exact alike.debug _ _

theorem activateByMarkers (markers : List (Value × Detector)) :
    Act.Simulates related (Activation.activateByMarkers first markers)
      (Activation.activateByMarkers second markers) := by
  induction markers with
  | nil => exact simulates_pure ()
  | cons entry rest ih =>
      obtain ⟨marker, detector⟩ := entry
      unfold Activation.activateByMarkers
      refine (alike.findFiles _ _ _).bind fun files => ?_
      cases files with
      | nil => exact ih
      | cons path others =>
          refine (alike.loadFirst detector).bind fun loaded => ?_
          cases loaded with
          | none => exact simulates_pure ()
          | some path => exact alike.debug _ _

theorem activate (detectors : List Detector) (language : Option Value) :
    Act.Simulates related (Activation.activate first detectors language)
      (Activation.activate second detectors language) := by
  unfold Activation.activate
  refine simulates_get_bind fun {s t} here => ?_
  rw [alike.documents here]
  dsimp only
  split
  · exact simulates_throw _
  · exact alike.debug _ _
  · cases language with
    | none => exact alike.activateByMarkers _
    | some language =>
        dsimp only
        cases detectors.find? (·.isFor language) with
        | some detector => exact alike.activateFor language detector
        | none => exact (alike.debug _ _).bind fun _ => alike.activateByMarkers _

theorem pickOne (prompt : String) (candidates : List Candidate) :
    Act.Simulates related (Choice.pick first prompt candidates)
      (Choice.pick second prompt candidates) := by
  unfold Choice.pick
  refine (alike.pick prompt candidates).bind fun picked => ?_
  cases picked with
  | some candidate => exact simulates_pure _
  | none => exact (alike.debug _ _).bind fun _ => simulates_pure _

theorem select (priority : Priority) (policy : ManyPolicy) (candidates : List Candidate) :
    Act.Simulates related (Choice.select first priority policy candidates)
      (Choice.select second priority policy candidates) := by
  unfold Choice.select
  rcases Choice.sortByPriority priority candidates with _ | ⟨top, _ | ⟨next, others⟩⟩
  · exact simulates_throw _
  · exact simulates_pure _
  cases policy with
  | first => exact simulates_pure _
  | pick => exact alike.pickOne _ _
  | byRoot =>
      refine simulates_get_bind fun here => ?_
      rw [alike.roots here]
      exact simulates_pure _

theorem askFirst (spellings : List String) :
    Act.Simulates related (Resolution.askFirst first spellings)
      (Resolution.askFirst second spellings) := by
  induction spellings with
  | nil => exact simulates_pure []
  | cons spelling rest ih =>
      unfold Resolution.askFirst
      refine (alike.query spelling).bind fun answer => (alike.debug _ _).bind fun _ => ?_
      split
      · exact ih
      · exact simulates_pure _

theorem settle {query like : Query} (same : query.Alike like) (admitted : Option (List Kind))
    (priority : Priority) (policy : ManyPolicy) (symbols : List Candidate) :
    Act.Simulates related (Resolution.settle first query admitted priority policy symbols)
      (Resolution.settle second like admitted priority policy symbols) := by
  unfold Resolution.settle
  dsimp only
  rw [same.name]
  split
  · exact alike.select priority policy _
  split
  · exact (alike.debug _ _).bind fun _ => alike.pickOne _ _
  · exact (alike.debug _ _).bind fun _ => simulates_pure _

theorem round {query like : Query} (same : query.Alike like) (admitted : Option (List Kind))
    (priority : Priority) (policy : ManyPolicy) :
    Act.Simulates related (Resolution.round first query admitted priority policy)
      (Resolution.round second like admitted priority policy) := by
  unfold Resolution.round
  rw [same.name]
  refine (alike.askFirst _).bind fun symbols => ?_
  split
  · exact simulates_pure none
  · exact (alike.debug _ _).bind fun _ =>
      (alike.settle same admitted priority policy symbols).bind fun _ => simulates_pure _

theorem pause (settings : Settings) :
    Act.Simulates related (Resolution.pause first settings)
      (Resolution.pause second settings) := by
  unfold Resolution.pause
  split
  · exact alike.wait _
  · exact simulates_throw _

theorem rounds {query like : Query} (same : query.Alike like) (admitted : Option (List Kind))
    (priority : Priority) (settings : Settings) {token : Option (σ → Bool)}
    {other : Option (τ → Bool)}
    (tokens : ∀ {s t}, related s t →
      (token.map (· s)).getD false = (other.map (· t)).getD false)
    (number left : Nat) :
    Act.Simulates related
      (Resolution.rounds first query admitted priority settings token number left)
      (Resolution.rounds second like admitted priority settings other number left) := by
  induction left generalizing number with
  | zero => exact simulates_pure _
  | succ left ih =>
      unfold Resolution.rounds
      refine simulates_get_bind fun {s t} here => ?_
      rw [tokens here]
      split
      · exact (alike.debug _ _).bind fun _ => simulates_pure _
      refine (alike.debug _ _).bind fun _ => ?_
      refine ((alike.round same admitted priority settings.many).tryCatch
        fun fault => simulates_throw _).bind fun outcome => ?_
      cases outcome with
      | some outcome => exact simulates_pure _
      | none =>
          dsimp only
          split
          · exact (alike.pause settings).bind fun _ => ih (number + 1)
          · exact ih (number + 1)

theorem resolve {query like : Query} (same : query.Alike like) (settings : Settings)
    {token : Option (σ → Bool)} {other : Option (τ → Bool)}
    (tokens : ∀ {s t}, related s t →
      (token.map (· s)).getD false = (other.map (· t)).getD false) :
    Act.Simulates related (Resolution.resolve first query settings token)
      (Resolution.resolve second like settings other) := by
  unfold Resolution.resolve
  cases Priority.ofNames settings.priority with
  | error error => exact simulates_throw _
  | ok priority =>
      dsimp only
      rw [same.ofHint]
      cases Kind.ofHint like.hint with
      | error error => exact simulates_throw _
      | ok admitted => exact alike.rounds same admitted priority settings tokens 1 _

end Host.Simulates

namespace Environment.Simulates

variable {related : σ → τ → Prop} {first : Environment σ} {second : Environment τ}
  (alike : Environment.Simulates related first second)
include alike

theorem present {query like : Query} (same : query.Alike like) (settings : Settings)
    (outcome : Outcome) :
    Act.Simulates related (Opener.present first query settings outcome)
      (Opener.present second like settings outcome) := by
  cases outcome with
  | found candidate =>
      unfold Opener.present
      dsimp only
      cases Opener.lineText? candidate.location.line with
      | some line => exact (alike.host.info _ _).bind fun _ => alike.host.reveal _
      | none => exact alike.host.reveal _
  | cancelled => exact alike.host.info _ _
  | notFound =>
      unfold Opener.present
      dsimp only
      rw [same.name, same.notFoundMessage]
      cases settings.notFound with
      | search => exact (alike.host.info _ _).bind fun _ => alike.host.openSearch _
      | error => exact (alike.host.info _ _).bind fun _ => alike.host.showError _

/-- Opening a symbol goes the same way in environments that cannot be told apart. -/
theorem openSymbol {query like : Query} (same : query.Alike like) (token : Option (σ → Bool))
    (other : Option (τ → Bool))
    (tokens : ∀ {s t}, related s t →
      (token.map (· s)).getD false = (other.map (· t)).getD false) :
    Act.Simulates related (Opener.openSymbol first query token)
      (Opener.openSymbol second like other) := by
  unfold Opener.openSymbol
  refine alike.settings.bind fun settings => (alike.host.activate _ _).bind fun _ => ?_
  refine (alike.host.info _ _).bind fun _ => ?_
  refine (alike.host.resolve same settings tokens).bind fun outcome => ?_
  exact (alike.present same settings outcome).bind fun _ => simulates_pure outcome

end Environment.Simulates

end SymbolJump
