/-
# The law of cancellation

A token is looked at before each round. One that is cancelled by then ends the query without
another question, so a query whose token is cancelled before it begins asks nothing, and a round
that was begun is completed. Under a request nothing is shown then.

Between a cancelled token and the next round stands the wait, and there may be no next round. A
token that is cancelled while the last round gets nothing is therefore overlooked, and the query
ends as one that found nothing; and where the wait is too long for the host, the query ends with
that. These are the only cases outside the law.
-/
import SymbolJump.Proofs.Events
import SymbolJump.Proofs.Failures
import SymbolJump.Proofs.Retries

namespace SymbolJump

open Act Dialogue

variable {η : Type}

namespace Resolution

/-- A token is cancelled on one of the questions of a round, and stays so while anything is said. -/
def CancelledDuring (cancelled : η → Bool) (asking later : List (Exchange η)) : Prop :=
  ∃ earlier question others, asking = earlier ++ question :: others ∧
    ∀ exchange ∈ question :: others ++ later, cancelled exchange.after = true

/-- A token is cancelled during a round that gets nothing, after a number of others, with the given
exchanges after it. -/
def CancelsRound (cancelled : η → Bool) (name : String) (interval : Nat)
    (said : List (Exchange η)) (count : Nat) (later : List (Exchange η)) : Prop :=
  ∃ before asking, said = before ++ (asking ++ later) ∧ Waited name interval count before ∧
    EmptyRound name asking ∧ CancelledDuring cancelled asking later

/-- What is said of a query whose token may be cancelled at any point. -/
structure HeedsToken (cancelled : η → Bool) (name : String) (interval : Nat) (start : η)
    (said : List (Exchange η)) (answer : Except Fault Outcome) : Prop where
  /-- When the token is cancelled at first, nothing is asked. -/
  early : cancelled start = true → said = [] ∧ answer = .ok .cancelled
  /-- A round is completed, whatever becomes of the token after its first question. -/
  completes : ∀ count before first later, said = before ++ first :: later →
    Waited name interval count before → first.Answers ("#" ++ name) [] →
      ∃ second others symbols, later = second :: others ∧ second.Answers name symbols
  /-- When the token is cancelled during a round that gets nothing, nothing more is asked. -/
  during : ∀ count later, CancelsRound cancelled name interval said count later →
    (∀ exchange ∈ later, exchange.isQuery = false) ∧ answer = .ok .cancelled

/-- The cases outside the law: the token is cancelled during the last round, or before a wait that
is too long for the host. -/
def Overlooks (cancelled : η → Bool) (name : String) (rounds interval : Nat)
    (said : List (Exchange η)) : Prop :=
  ∃ count later, CancelsRound cancelled name interval said count later ∧
    (count + 1 = rounds ∨ tooLong ≤ interval)

theorem EmptyRound.length {name : String} {asking : List (Exchange η)}
    (empty : EmptyRound name asking) : asking.length = 2 := by
  cases empty with
  | both => rfl

/-- What begins with a round that gets nothing does so in one way. -/
theorem EmptyRound.append_inj {name : String} {asking other later rest : List (Exchange η)}
    (empty : EmptyRound name asking) (also : EmptyRound name other)
    (same : other ++ rest = asking ++ later) : other = asking ∧ rest = later :=
  List.append_inj same (also.length.trans empty.length.symm)

section Told

variable {host : Host η} {query : Query} {admitted : Option (List Kind)} {priority : Priority}
  {settings : Settings} {token : Option (η → Bool)} {left : Nat} {state : η}
  {said asking later : List (Exchange η)} {answer : Except Fault Outcome}

/-- With a cancelled token nothing is said. -/
theorem told_of_stops (told : Told host query admitted priority settings token left state said
    answer) (positive : 0 < left) (stops : stops token state = true) :
    said = [] ∧ answer = .ok .cancelled := by
  cases told with
  | spent => exact absurd positive (Nat.lt_irrefl 0)
  | cancelled now => exact ⟨rfl, rfl⟩
  | unanswered goesOn => nomatch goesOn.symm.trans stops
  | settled goesOn => nomatch goesOn.symm.trans stops
  | last goesOn => nomatch goesOn.symm.trans stops
  | endless goesOn => nomatch goesOn.symm.trans stops
  | unwaited goesOn => nomatch goesOn.symm.trans stops
  | again goesOn => nomatch goesOn.symm.trans stops

/-- What can follow a round that gets nothing. -/
inductive Follows (host : Host η) (query : Query) (admitted : Option (List Kind))
    (priority : Priority) (settings : Settings) (token : Option (η → Bool)) (state : η) :
    (left : Nat) → List (Exchange η) → Except Fault Outcome → Prop
  | last : Follows host query admitted priority settings token state 1 [] (.ok .notFound)
  | endless {left : Nat} (long : tooLong ≤ settings.retryInterval) :
      Follows host query admitted priority settings token state (left + 2) []
        (.error (.overflow .wait))
  | again {left : Nat} {rest : List (Exchange η)} {answer : Except Fault Outcome}
      (fits : settings.retryInterval < tooLong)
      (told : Told host query admitted priority settings token (left + 1)
        (waiting host settings state).after rest answer) :
      Follows host query admitted priority settings token state (left + 2)
        (waiting host settings state :: rest) answer

theorem follows_of_empty
    (answers : ∀ text state, ∃ answer, ((host.query text).start state).1 = .ok answer)
    (waits : ∀ state, ((host.wait settings.retryInterval).start state).1 = .ok ())
    (told : Told host query admitted priority settings token left state (asking ++ later) answer)
    (empty : EmptyRound query.name asking) :
    Follows host query admitted priority settings token (stateAfter state asking) left later
      answer := by
  generalize same : asking ++ later = said at told
  have some : said ≠ [] := by
    rw [← same]
    cases empty with
    | both => exact List.cons_ne_nil _ _
  cases told with
  | spent => exact absurd rfl some
  | cancelled => exact absurd rfl some
  | unanswered _ asked => exact absurd asked (not_asked_error answers)
  | settled _ asked full =>
      exact absurd same.symm ((fullRound_of_asked asked full).not_empty empty)
  | last _ asked =>
      rw [← List.append_nil said] at same
      obtain ⟨rfl, rfl⟩ := (emptyRound_of_asked asked).append_inj empty same
      exact .last
  | endless _ asked long =>
      rw [← List.append_nil said] at same
      obtain ⟨rfl, rfl⟩ := (emptyRound_of_asked asked).append_inj empty same
      exact .endless long
  | unwaited _ _ failed => nomatch failed.symm.trans (waits _)
  | again _ asked fits told =>
      obtain ⟨rfl, rfl⟩ := (emptyRound_of_asked asked).append_inj empty same
      exact .again fits told

/-- After rounds that get nothing, each followed by a wait, the query goes on as one that begins
there. -/
theorem told_of_waited
    (answers : ∀ text state, ∃ answer, ((host.query text).start state).1 = .ok answer)
    (waits : ∀ state, ((host.wait settings.retryInterval).start state).1 = .ok ())
    {count : Nat} {before : List (Exchange η)}
    (waited : Waited query.name settings.retryInterval count before) (positive : 0 < left)
    (told : Told host query admitted priority settings token left state (before ++ later)
      answer) :
    ∃ rest, left = rest + count ∧ 0 < rest ∧
      Told host query admitted priority settings token rest (stateAfter state before) later
        answer := by
  induction waited generalizing left state with
  | nil => exact ⟨left, rfl, positive, told⟩
  | cons empty pauses others ih =>
      rw [List.append_assoc, List.cons_append] at told
      cases follows_of_empty answers waits told empty with
      | again fits told =>
          obtain ⟨rest, same, positive, told⟩ := ih (Nat.succ_pos _) told
          refine ⟨rest, ?_, positive, ?_⟩
          · omega
          · simpa [stateAfter] using told

/-- Questions that begin with one that gets nothing go on with the second spelling. -/
theorem exists_second_of_asked {name : String} {symbols : List Candidate} {first : Exchange η}
    {rest : List (Exchange η)} (asked : Asked host name asking (.ok symbols))
    (unanswered : first.Answers ("#" ++ name) []) (same : asking ++ rest = first :: later) :
    ∃ second others symbols, later = second :: others ∧ second.Answers name symbols := by
  cases asked with
  | first answered some =>
      obtain ⟨rfl, -⟩ := List.cons.inj same
      exact absurd (answered.unique unanswered) some
  | second _ answered =>
      obtain ⟨-, same⟩ := List.cons.inj same
      exact ⟨_, _, _, same.symm, answered⟩

theorem exists_second_of_told
    (answers : ∀ text state, ∃ answer, ((host.query text).start state).1 = .ok answer)
    {first : Exchange η}
    (told : Told host query admitted priority settings token left state (first :: later) answer)
    (unanswered : first.Answers ("#" ++ query.name) []) :
    ∃ second others symbols, later = second :: others ∧ second.Answers query.name symbols := by
  generalize same : first :: later = said at told
  cases told with
  | spent => nomatch same
  | cancelled => nomatch same
  | unanswered _ asked => exact absurd asked (not_asked_error answers)
  | settled _ asked => exact exists_second_of_asked asked unanswered same.symm
  | last _ asked =>
      rw [← List.append_nil said] at same
      exact exists_second_of_asked asked unanswered same.symm
  | endless _ asked =>
      rw [← List.append_nil said] at same
      exact exists_second_of_asked asked unanswered same.symm
  | unwaited _ asked => exact exists_second_of_asked asked unanswered same.symm
  | again _ asked => exact exists_second_of_asked asked unanswered same.symm

/-- What comes of a round that gets nothing while the token is cancelled, with the given number of
rounds before it and a number of rounds in all. -/
inductive ComesOf (rounds interval count : Nat) (later : List (Exchange η)) :
    Except Fault Outcome → Prop
  | last (last : count + 1 = rounds) (none : later = []) : ComesOf rounds interval count later
      (.ok .notFound)
  | endless (left : count + 1 < rounds) (long : tooLong ≤ interval) (none : later = []) :
      ComesOf rounds interval count later (.error (.overflow .wait))
  | heeded {pause : Exchange η} (left : count + 1 < rounds) (fits : interval < tooLong)
      (only : later = [pause]) (waits : pause.call = .wait interval) :
      ComesOf rounds interval count later (.ok .cancelled)

theorem comesOf_of_told {cancelled : η → Bool}
    (answers : ∀ text state, ∃ answer, ((host.query text).start state).1 = .ok answer)
    (waits : ∀ state, ((host.wait settings.retryInterval).start state).1 = .ok ())
    (told : Told host query admitted priority settings (some cancelled) left state said answer)
    (positive : 0 < left) {count : Nat}
    (during : CancelsRound cancelled query.name settings.retryInterval said count later) :
    ComesOf left settings.retryInterval count later answer := by
  obtain ⟨before, asking, rfl, waited, empty, earlier, question, others, rfl, stays⟩ := during
  obtain ⟨rest, rfl, -, told⟩ := told_of_waited answers waits waited positive told
  cases follows_of_empty answers waits told empty with
  | last => exact .last (Nat.add_comm count 1) rfl
  | endless long => exact .endless (by omega) long rfl
  | again fits told =>
      have stops : stops (some cancelled) (waiting host settings _).after = true :=
        stays _ (List.mem_append_right _ List.mem_cons_self)
      obtain ⟨rfl, rfl⟩ := told_of_stops told (Nat.succ_pos _) stops
      exact .heeded (by omega) fits rfl rfl

end Told

theorem ComesOf.isQuery_eq_false {rounds interval count : Nat} {later : List (Exchange η)}
    {answer : Except Fault Outcome} (comes : ComesOf rounds interval count later answer)
    (exchange : Exchange η) (member : exchange ∈ later) : exchange.isQuery = false := by
  cases comes with
  | last _ none =>
      rw [none] at member
      nomatch member
  | endless _ _ none =>
      rw [none] at member
      nomatch member
  | heeded _ _ only waits =>
      rw [only, List.mem_singleton] at member
      rw [member, Exchange.isQuery, waits]

theorem ComesOf.eq_cancelled_iff {rounds interval count : Nat} {later : List (Exchange η)}
    {answer : Except Fault Outcome} (comes : ComesOf rounds interval count later answer) :
    answer = .ok .cancelled ↔ ¬ (count + 1 = rounds ∨ tooLong ≤ interval) := by
  cases comes with
  | last last => exact iff_of_false nofun (not_not_intro (.inl last))
  | endless _ long => exact iff_of_false nofun (not_not_intro (.inr long))
  | heeded left fits =>
      refine iff_of_true rfl ?_
      omega

/-- A query heeds its token just when the token is not overlooked. -/
theorem heedsToken_iff_of_told {host : Host η} {query : Query} {admitted : Option (List Kind)}
    {priority : Priority} {settings : Settings} {cancelled : η → Bool} {left : Nat} {state : η}
    {said : List (Exchange η)} {answer : Except Fault Outcome}
    (answers : ∀ text state, ∃ answer, ((host.query text).start state).1 = .ok answer)
    (waits : ∀ state, ((host.wait settings.retryInterval).start state).1 = .ok ())
    (told : Told host query admitted priority settings (some cancelled) left state said answer)
    (positive : 0 < left) :
    HeedsToken cancelled query.name settings.retryInterval state said answer ↔
      ¬ Overlooks cancelled query.name left settings.retryInterval said := by
  constructor
  · rintro heeds ⟨count, later, during, missed⟩
    have comes := comesOf_of_told answers waits told positive during
    exact comes.eq_cancelled_iff.mp (heeds.during count later during).2 missed
  intro heard
  constructor
  · intro now
    exact told_of_stops told positive now
  · intro count before first later same waited unanswered
    rw [same] at told
    obtain ⟨rest, -, -, told⟩ := told_of_waited answers waits waited positive told
    exact exists_second_of_told answers told unanswered
  · intro count later during
    have comes := comesOf_of_told answers waits told positive during
    refine ⟨comes.isQuery_eq_false, comes.eq_cancelled_iff.mpr ?_⟩
    intro missed
    exact heard ⟨count, later, during, missed⟩

end Resolution

/-- Whether a call shows something to the user, other than a picker. -/
def Call.isShowing : Call → Bool
  | .reveal _ | .openSearch _ | .showError _ => true
  | _ => false

namespace Bench

variable {host : Host η} {settings : Except Fault Settings} {start : η} {query : Query}
  {token : Option (η → Bool)}

/-- A bench on which nothing was shown. -/
def IsUnshown (bench : Bench η) : Prop :=
  ∀ call ∈ bench.calls, call.isShowing = false

theorem meets_recorded_unshown {α : Type} {call : Call} (silent : call.isShowing = false)
    (act : Act η α) (broken : Fault → Bench η → Prop)
    (faults : ∀ fault bench, broken fault bench) :
    Act.Meets IsUnshown (recorded call act) (fun _ => IsUnshown) broken := by
  intro bench unshown
  rw [start_recorded]
  rcases act.start bench.host with ⟨fault | answer, after⟩
  · exact faults fault _
  · intro made member
    rcases List.mem_append.mp member with before | now
    · exact unshown made before
    · rw [List.mem_singleton.mp now]
      exact silent

/-- Nothing is shown before the outcome is. -/
theorem hostOf_meets_unshown (host : Host η) :
    Host.Meets IsUnshown (fun _ => True) (fun _ _ => True) (fun _ _ => True) (hostOf host) where
  query _ := meets_recorded_unshown rfl _ _ fun _ _ => trivial
  pick _ _ := meets_recorded_unshown rfl _ _ fun _ _ => trivial
  findFiles _ _ _ := meets_recorded_unshown rfl _ _ fun _ _ => trivial
  load _ := meets_recorded_unshown rfl _ _ fun _ _ => trivial
  wait _ := meets_recorded_unshown rfl _ _ fun _ _ => trivial
  reveal _ := meets_anything _
  openSearch _ := meets_anything _
  showError _ := meets_anything _
  log _ _ unshown := unshown
  silent _ := trivial
  passed _ := trivial
  own _ _ := trivial

theorem meets_present (host : Host η) (query : Query) (inForce : Settings) (outcome : Outcome) :
    Act.Meets IsUnshown
      (do Opener.present (environment host) query inForce outcome; return outcome :
        Act (Bench η) Outcome)
      (fun outcome bench => outcome = .cancelled → IsUnshown bench) (fun _ _ => True) := by
  have meets := hostOf_meets_unshown host
  cases outcome with
  | cancelled =>
      apply (meets.info "cancelled").bind
      intro shown
      exact meets_pure fun unshown _ => unshown
  | found candidate =>
      apply (meets.present rfl query inForce (.found candidate)).bind
      intro shown
      exact meets_pure fun _ same => nomatch same
  | notFound =>
      apply (meets.present rfl query inForce .notFound).bind
      intro shown
      exact meets_pure fun _ same => nomatch same

/-- A request that ends cancelled shows nothing. -/
theorem isUnshown_opening (ended : (opening host settings start query token).1 = .ok .cancelled) :
    IsUnshown (opening host settings start query token).2 := by
  rcases settings with fault | inForce
  · rw [opening_of_refused] at ended
    nomatch ended
  have meets := hostOf_meets_unshown host
  have resolves : Act.Meets IsUnshown (Resolution.resolve (hostOf host) query inForce
      (token.map fun cancelled bench => cancelled bench.host)) (fun _ => IsUnshown)
      (fun _ _ => True) := by
    by_cases unknown : ∃ error, Resolution.NamesUnknown inForce query error
    · obtain ⟨error, unknown⟩ := unknown
      rw [Resolution.resolve_of_namesUnknown _ _ unknown]
      exact meets_throw fun _ => trivial
    · obtain ⟨admitted, priority, same⟩ := Resolution.resolve_of_known (hostOf host)
        (token.map fun cancelled bench => cancelled bench.host)
        fun error unnamed => unknown ⟨error, unnamed⟩
      rw [same]
      exact meets.rounds query admitted priority inForce _ 1 _
  rw [opening_of_inForce] at ended ⊢
  have opened := (meets.activate inForce.detectors inForce.language).bind fun _ =>
    (meets.info ("resolving symbol: " ++ query.name ++ Opener.hintText query.hint)).bind fun _ =>
      resolves.bind fun outcome => meets_present host query inForce outcome
  have nothing : IsUnshown { host := start, settings := .ok inForce } :=
    fun _ member => nomatch member
  have unshown := opened nothing
  generalize Act.start _ _ = course at unshown ended ⊢
  rcases course with ⟨fault | outcome, bench⟩
  · nomatch ended
  · exact unshown (Except.ok.inj ended)

/-- A token that looks at hosts says the same of states with the same host. -/
theorem token_alike {σ τ : Type} (token : Option (η → Bool)) {hostOf : σ → η} {otherOf : τ → η}
    {state : σ} {other : τ} (same : hostOf state = otherOf other) :
    ((token.map fun cancelled state => cancelled (hostOf state)).map (· state)).getD false =
      ((token.map fun cancelled other => cancelled (otherOf other)).map (· other)).getD false := by
  cases token with
  | none => rfl
  | some cancelled => exact congrArg cancelled same

/-- A query goes on any bench as in a dialogue of its own. -/
theorem exists_start_resolve (host : Host η) (query : Query) (settings : Settings)
    (token : Option (η → Bool)) (bench : Bench η) :
    let course := resolving host bench.host query settings token
    ∃ lines, (Resolution.resolve (hostOf host) query settings
        (token.map fun cancelled bench => cancelled bench.host)).start bench =
      (course.1, { bench with
        host := course.2.host
        calls := bench.calls ++ course.2.exchanges.map Exchange.call
        lines }) := by
  intro course
  let alone : Bench η := { host := bench.host, settings := bench.settings }
  have extended : Extends bench bench alone :=
    ⟨rfl, rfl, rfl, rfl, (List.append_nil _).symm, fun _ member => nomatch member⟩
  have recorded : Records alone { host := bench.host } := ⟨rfl, rfl⟩
  obtain ⟨first, after⟩ := (hostOf_simulates host bench).resolve (Query.Alike.refl query) settings
    (fun here => token_alike token (Extends.host here)) extended
  obtain ⟨second, said⟩ := (bench_simulates host).resolve (Query.Alike.refl query) settings
    (fun here => token_alike token (Records.host here)) recorded
  have left := after.eq_origin
  rw [said.host, said.calls] at left
  exact ⟨_, Prod.ext (first.trans second) left⟩

/-- Opening a symbol ends cancelled when resolving it does, from where the index is awake. -/
theorem opening_of_cancelled {inForce : Settings} (woken : (waking host inForce start).1 = .ok ())
    (resolved : (resolving host (waking host inForce start).2.host query inForce token).1 =
      .ok .cancelled) :
    (opening host (.ok inForce) start query token).1 = .ok .cancelled := by
  rw [opening_of_inForce]
  rcases course : waking host inForce start with ⟨fault | done, bench⟩
  · rw [course] at woken
    nomatch woken
  rw [course] at resolved
  obtain ⟨lines, answered⟩ := exists_start_resolve host query inForce token
    { bench with lines := bench.lines ++ [⟨.info,
      "resolving symbol: " ++ query.name ++ Opener.hintText query.hint⟩] }
  rw [resolved] at answered
  rw [start_bind_of_ok course, start_bind_of_ok (start_info _ _ _), start_bind_of_ok answered]
  rfl

end Bench

/-- A request that is resolved here ends cancelled when its query does, and shows nothing then. -/
theorem Opener.start_handleRequest_of_cancelled {host : Host η} {window : Window (Bench η)}
    {symbol project : String} {hint : Option String} {settings : Settings}
    {cancelled : η → Bool} (givenSymbol : symbol ≠ "") (givenProject : project ≠ "")
    (inForce : window.world.settings = .ok settings)
    (here : Path.isOpenAmong project (host.roots window.world.host))
    (woken : (Bench.waking host settings window.world.host).1 = .ok ())
    (resolved : (resolving host (Bench.waking host settings window.world.host).2.host
      ⟨symbol, hint⟩ settings (some cancelled)).1 = .ok .cancelled) :
    let served := (handleRequest (Bench.environment host) (some symbol) (some project) hint
      (some fun bench => cancelled bench.host)).start window
    served.1 = .ok (some .cancelled) ∧ ∃ made,
      served.2.world.calls = window.world.calls ++ made ∧
        ∀ call ∈ made, call.isShowing = false := by
  have opened := Bench.opening_of_cancelled woken resolved
  have unshown := Bench.isUnshown_opening opened
  obtain ⟨lines, served⟩ := start_handleRequest_of_here host window hint (some cancelled)
    givenSymbol givenProject inForce here
  rw [Option.map_some] at served
  rw [served, opened]
  refine ⟨rfl, _, List.append_assoc _ _ _, ?_⟩
  intro call member
  rcases List.mem_append.mp member with made | told
  · exact unshown call made
  · nomatch told

namespace Resolution

/-- The law of cancellation. With valid names, an index that never fails and waits that never fail,
a query heeds its token, except where the token is cancelled during the last round or before a wait
that is too long; what comes of every round that gets nothing with a cancelled token is given case
by case. A request whose query ends cancelled ends cancelled too, and shows nothing. -/
theorem cancelled_queries_end {host : Host η} {start : η} {query : Query} {settings : Settings}
    {cancelled : η → Bool}
    (knownPriority : ∀ name ∈ settings.priority, ∃ kind : Kind, kind.name = name)
    (knownHint : HintIsValid query.hint) (rounds : 1 ≤ settings.retryCount)
    (answers : ∀ text state, ∃ answer, ((host.query text).start state).1 = .ok answer)
    (waits : ∀ state, ((host.wait settings.retryInterval).start state).1 = .ok ()) :
    let course := resolving host start query settings (some cancelled)
    let said := course.2.exchanges
    (HeedsToken cancelled query.name settings.retryInterval start said course.1 ↔
      ¬ Overlooks cancelled query.name settings.retryCount settings.retryInterval said) ∧
    (∀ count later, CancelsRound cancelled query.name settings.retryInterval said count later →
      ComesOf settings.retryCount settings.retryInterval count later course.1) ∧
    ∀ (window : Window (Bench η)) (project : String), query.name ≠ "" → project ≠ "" →
      window.world.settings = .ok settings →
      Path.isOpenAmong project (host.roots window.world.host) →
      (Bench.waking host settings window.world.host).1 = .ok () →
      (Bench.waking host settings window.world.host).2.host = start →
      course.1 = .ok .cancelled →
        let served := (Opener.handleRequest (Bench.environment host) (some query.name)
          (some project) query.hint (some fun bench => cancelled bench.host)).start window
        served.1 = .ok (some .cancelled) ∧ ∃ made,
          served.2.world.calls = window.world.calls ++ made ∧
            ∀ call ∈ made, call.isShowing = false := by
  obtain ⟨name, hint⟩ := query
  intro course said
  obtain ⟨priority, known⟩ := exists_ofNames knownPriority
  obtain ⟨admitted, hinted⟩ := exists_ofHint knownHint
  have told := told_of_valid host (some cancelled) start known hinted
  refine ⟨heedsToken_iff_of_told answers waits told rounds, ?_, ?_⟩
  · intro count later during
    exact comesOf_of_told answers waits told rounds during
  · intro window project givenName givenProject inForce here woken same ended
    subst same
    exact Opener.start_handleRequest_of_cancelled givenName givenProject inForce here woken ended

/-- A token that is cancelled once the index has given all the answers of its script. -/
def whenSpent (script : Script) : Bool :=
  script.answers.isEmpty

/-- The exchanges of a round that uses up a script without a symbol. -/
def lastOfScript (first : Script) : List (Exchange Script) :=
  [⟨.query "#f", .symbols none, first⟩, ⟨.query "f", .symbols none, {}⟩]

theorem cancelsRound_lastOfScript (first : Script) (later : List (Exchange Script))
    (stays : ∀ exchange ∈ later, whenSpent exchange.after = true) :
    CancelsRound whenSpent "f" Script.settings.retryInterval (lastOfScript first ++ later) 0
      later := by
  refine ⟨[], lastOfScript first, rfl, .nil, .both ⟨rfl, none, rfl, rfl⟩ ⟨rfl, none, rfl, rfl⟩,
    [_], _, [], rfl, ?_⟩
  intro exchange member
  rcases List.mem_cons.mp member with rfl | member
  · rfl
  · exact stays exchange member

/-- A query ends cancelled when the second question of its first round cancels the token. -/
theorem cancelled_queries_end_first_round :
    let start : Script := { answers := [none, none] }
    let query : Query := ⟨"f", none⟩
    (resolving Script.host start query Script.settings (some whenSpent)).1 = .ok .cancelled := by
  intro start query
  have hint : HintIsValid query.hint := .inl rfl
  have answers : ∀ text (state : Script), ∃ answer,
      ((Script.host.query text).start state).1 = .ok answer := fun _ _ => ⟨_, rfl⟩
  have waits : ∀ state : Script,
      ((Script.host.wait Script.settings.retryInterval).start state).1 = .ok () := fun _ => rfl
  have fits : Script.settings.retryInterval < tooLong := by decide +kernel
  let pause : Exchange Script := ⟨.wait 500, .done, {}⟩
  have said : (resolving Script.host start query Script.settings (some whenSpent)).2.exchanges =
      lastOfScript { answers := [none] } ++ [pause] := by
    decide +kernel
  have during := cancelsRound_lastOfScript { answers := [none] } [pause] (by simp [pause]; rfl)
  rw [← said] at during
  have law := @cancelled_queries_end Script Script.host start query Script.settings whenSpent
    Script.names hint (by decide) answers waits
  refine (law.2.1 0 _ during).eq_cancelled_iff.mpr ?_
  rintro (last | long)
  · nomatch last
  · exact absurd fits (Nat.not_lt_of_le long)

/-- A query ends as one that found nothing when a question of its last round cancels the token. -/
theorem not_heedsToken_of_last_round :
    let start : Script := { answers := [none] }
    let settings := { Script.settings with retryCount := 1 }
    let course := resolving Script.host start ⟨"f", none⟩ settings (some whenSpent)
    ¬ HeedsToken whenSpent "f" settings.retryInterval start course.2.exchanges course.1 := by
  intro start settings course heeds
  have said : course.2.exchanges = lastOfScript {} ++ [] := by
    rfl
  have during := cancelsRound_lastOfScript {} [] fun _ member => nomatch member
  rw [← said] at during
  have ended : course.1 = .ok .cancelled := (heeds.during 0 [] during).2
  nomatch ended

end Resolution

end SymbolJump
