/-
# Presenting an outcome

A request that is resolved here makes its calls in a fixed order: those that wake the index, the
questions with the waits between them, at most one picker, and one call that shows what was found
or that nothing was. Where no call fails, the outcome that is shown is the one that is returned.

Two things stand against this, and neither is a call: a detector may have a pattern that is no text,
which ends the request before its first call, and the wait after an empty round may be too long for
the host, which ends it with nothing shown.
-/
import SymbolJump.Proofs.Cancellation
import SymbolJump.Proofs.Waking

namespace SymbolJump

open Act Dialogue

variable {η : Type}

/-- The calls that show an outcome. -/
def Query.presentation (query : Query) (settings : Settings) : Outcome → List Call
  | .found candidate => [.reveal candidate.location]
  | .cancelled => []
  | .notFound =>
      match settings.notFound with
      | .search => [.openSearch query.name]
      | .error => [.showError query.notFoundMessage]

/-- Whether a call asks the index or waits for it. -/
def Call.isAsking : Call → Bool
  | .query _ | .wait _ => true
  | _ => false

/-- No call that a host answers fails. -/
def Host.NeverFails (host : Host η) : Prop :=
  ∀ state call, (host.finish state call).1 = none

/-- The calls of a request and its answer: the index is woken, asked, and perhaps a picker shown;
then the outcome that is returned is shown. -/
def PresentsOnce (settings : Settings) (query : Query) (made : List Call)
    (answer : Except Fault (Option Outcome)) : Prop :=
  ∃ outcome waking asking picking, answer = .ok (some outcome) ∧
    made = waking ++ asking ++ picking ++ query.presentation settings outcome ∧
    Wakes waking ∧ (∀ call ∈ asking, call.isAsking = true) ∧
    (picking = [] ∨ ∃ prompt shown, picking = [.pick prompt shown])

theorem Act.exists_ok_of_finish {α : Type} {act : Act η α} {state : η}
    (finishes : (act.finish state).1 = none) : ∃ answer, (act.start state).1 = .ok answer := by
  unfold finish at finishes
  rcases course : act.start state with ⟨fault | answer, after⟩
  · rw [course] at finishes
    nomatch finishes
  · exact ⟨answer, rfl⟩

namespace Resolution

variable {host : Host η} {query : Query} {admitted : Option (List Kind)} {priority : Priority}
  {settings : Settings} {token : Option (η → Bool)}

/-- With a picker that never fails, an answer settles a query with an outcome. -/
theorem exists_settling (picks : ∀ prompt candidates state,
      ∃ choice, ((host.pick prompt candidates).start state).1 = .ok choice)
    (state : η) (symbols : List Candidate) :
    ∃ outcome, (settling host query admitted priority settings state symbols).1 =
      .ok outcome := by
  rcases settling_cases host query admitted priority settings state symbols
    with ⟨outcome, course⟩ | ⟨prompt, candidates, course⟩
  · exact ⟨outcome, by rw [course]⟩
  · obtain ⟨choice, answered⟩ := picks prompt candidates state
    refine ⟨Choice.outcomeOf choice, ?_⟩
    rw [course, Choice.start_pick, answered]
    rfl

/-- Questions of a round are questions. -/
theorem isAsking_of_asked {name : String} {asking : List (Exchange η)}
    {answer : Except Fault (List Candidate)} (asked : Asked host name asking answer)
    {exchange : Exchange η} (member : exchange ∈ asking) : exchange.call.isAsking = true := by
  cases asked with
  | first answered =>
      rw [List.mem_singleton.mp member, answered.1]
      rfl
  | second unanswered answered =>
      rcases List.mem_cons.mp member with rfl | member
      · rw [unanswered.1]
        rfl
      · rw [List.mem_singleton.mp member, answered.1]
        rfl
  | firstFailed failed =>
      rw [List.mem_singleton.mp member]
      rfl
  | secondFailed unanswered failed =>
      rcases List.mem_cons.mp member with rfl | member
      · rw [unanswered.1]
        rfl
      · rw [List.mem_singleton.mp member]
        rfl

/-- Exchanges that ask first and then show at most one picker. -/
def AsksInOrder (said : List (Exchange η)) : Prop :=
  ∃ asking picks, said = asking ++ picks ∧ (∀ exchange ∈ asking, exchange.call.isAsking = true) ∧
    AtMostOnePick picks

theorem AsksInOrder.append {asking rest : List (Exchange η)}
    (all : ∀ exchange ∈ asking, exchange.call.isAsking = true) (later : AsksInOrder rest) :
    AsksInOrder (asking ++ rest) := by
  obtain ⟨others, picks, rfl, asks, picked⟩ := later
  refine ⟨asking ++ others, picks, (List.append_assoc _ _ _).symm, ?_, picked⟩
  intro exchange member
  rcases List.mem_append.mp member with here | there
  · exact all exchange here
  · exact asks exchange there

theorem asksInOrder_of_asking {asking : List (Exchange η)}
    (all : ∀ exchange ∈ asking, exchange.call.isAsking = true) : AsksInOrder asking :=
  ⟨asking, [], (List.append_nil _).symm, all, atMostOnePick_nil⟩

/-- Where nothing fails, a query is answered with an outcome after questions in order, or it
overruns after one empty round. -/
theorem outcome_of_told
    (answers : ∀ text state, ∃ answer, ((host.query text).start state).1 = .ok answer)
    (waits : ∀ state, ((host.wait settings.retryInterval).start state).1 = .ok ())
    (picks : ∀ prompt candidates state,
      ∃ choice, ((host.pick prompt candidates).start state).1 = .ok choice)
    {left : Nat} {state : η} {said : List (Exchange η)} {answer : Except Fault Outcome}
    (told : Told host query admitted priority settings token left state said answer) :
    (¬ Overruns query.name left settings.retryInterval said ∧ AsksInOrder said ∧
      ∃ outcome, answer = .ok outcome) ∨
    (Overruns query.name left settings.retryInterval said ∧ EmptyRound query.name said ∧
      answer = .error (.overflow .wait)) := by
  have none {rounds : Nat} :
      ¬ Overruns query.name rounds settings.retryInterval ([] : List (Exchange η)) := by
    rintro ⟨-, -, asking, rest, empty, same⟩
    cases empty with
    | both => nomatch same
  induction told with
  | spent =>
      exact .inl ⟨none, asksInOrder_of_asking (List.forall_mem_nil _), .notFound, rfl⟩
  | cancelled now =>
      exact .inl ⟨none, asksInOrder_of_asking (List.forall_mem_nil _), .cancelled, rfl⟩
  | unanswered _ asked => exact absurd asked (not_asked_error answers)
  | @settled left state asking symbols course _ asked some settles =>
      have full := fullRound_of_asked asked some
      have picked := atMostOnePick_settling host query admitted priority settings
        (stateAfter state asking) symbols
      obtain ⟨outcome, ended⟩ :
          ∃ outcome, (settling host query admitted priority settings (stateAfter state asking)
            symbols).1 = .ok outcome := exists_settling picks (stateAfter state asking) symbols
      rw [settles] at picked ended
      refine .inl ⟨full.not_overruns,
        ⟨asking, _, rfl, fun _ => isAsking_of_asked asked, picked⟩, outcome, ?_⟩
      rw [ended]
      rfl
  | last _ asked =>
      refine .inl ⟨fun overrun => absurd overrun.2.1 (by decide), ?_, .notFound, rfl⟩
      exact asksInOrder_of_asking fun _ => isAsking_of_asked asked
  | @endless left state asking _ asked long =>
      have empty := emptyRound_of_asked asked
      exact .inr ⟨empty.overruns long, empty, rfl⟩
  | unwaited _ asked failed => nomatch failed.symm.trans (waits _)
  | again _ asked fits told ih =>
      rcases ih with ⟨-, order, ended⟩ | ⟨overrun, -⟩
      · refine .inl ⟨fun overrun => absurd fits (Nat.not_lt_of_le overrun.1), ?_, ended⟩
        apply AsksInOrder.append (fun _ => isAsking_of_asked asked)
        exact AsksInOrder.append (List.forall_mem_singleton.mpr rfl) order
      · exact absurd fits (Nat.not_lt_of_le overrun.1)

end Resolution

namespace Bench

variable {host : Host η} {settings : Settings} {query : Query} {token : Option (η → Bool)}

/-- An outcome is shown by its calls, and one that needs no call is shown without fail. -/
theorem exists_start_present (host : Host η) (settings : Settings) (query : Query)
    (outcome : Outcome) (bench : Bench η) :
    ∃ answer after, (Opener.present (environment host) query settings outcome).start bench =
        (answer, after) ∧
      after.calls = bench.calls ++ query.presentation settings outcome ∧
      (query.presentation settings outcome = [] → answer = .ok ()) ∧
      (host.NeverFails → answer = .ok ()) := by
  have shows (call : Call) (act : Act η Unit) (lines : List LogLine)
      (finishes : host.NeverFails → ∀ state, (act.finish state).1 = none) :
      ∃ answer after, (recorded call act).start { bench with lines } = (answer, after) ∧
        after.calls = bench.calls ++ [call] ∧ ([call] = [] → answer = .ok ()) ∧
        (host.NeverFails → answer = .ok ()) := by
    refine ⟨_, _, start_recorded call act _, rfl, nofun, fun never => ?_⟩
    obtain ⟨answer, ended⟩ := Act.exists_ok_of_finish (finishes never bench.host)
    exact ended
  unfold Opener.present
  cases outcome with
  | found candidate =>
      have reveals := fun lines => shows (.reveal candidate.location)
        (host.reveal candidate.location) lines
        fun never state => never state (.reveal candidate.location)
      dsimp only
      cases Opener.lineText? candidate.location.line with
      | none => exact reveals bench.lines
      | some line =>
          rw [environment_host, start_bind_of_ok (start_info host _ bench)]
          exact reveals _
  | cancelled => exact ⟨_, _, rfl, (List.append_nil _).symm, fun _ => rfl, fun _ => rfl⟩
  | notFound =>
      unfold Query.presentation
      dsimp only
      cases settings.notFound with
      | search =>
          dsimp only
          rw [environment_host, start_bind_of_ok (start_info host _ bench)]
          exact shows _ _ _ fun never state => never state (.openSearch query.name)
      | error =>
          dsimp only
          rw [environment_host, start_bind_of_ok (start_info host _ bench)]
          exact shows _ _ _ fun never state => never state (.showError query.notFoundMessage)

/-- What is done once the index is awake: the calls of the query, and those that show its
outcome. -/
theorem exists_start_answering (host : Host η) (settings : Settings) (query : Query)
    (token : Option (η → Bool)) (bench : Bench η) :
    let course := resolving host bench.host query settings token
    let said := course.2.exchanges.map Exchange.call
    ∃ answer after, (answering host settings query token).start bench = (answer, after) ∧
      match course.1 with
      | .error fault => answer = .error fault ∧ after.calls = bench.calls ++ said
      | .ok outcome =>
          after.calls = bench.calls ++ said ++ query.presentation settings outcome ∧
          (query.presentation settings outcome = [] → answer = .ok outcome) ∧
          (host.NeverFails → answer = .ok outcome) := by
  intro course said
  let informed : Bench η := { bench with lines := bench.lines ++ [⟨.info,
    "resolving symbol: " ++ query.name ++ Opener.hintText query.hint⟩] }
  obtain ⟨lines, resolves⟩ := exists_start_resolve host query settings token informed
  change _ = (course.1, _) at resolves
  unfold answering
  rw [start_bind_of_ok (start_info host _ bench)]
  rcases ended : course.1 with fault | outcome
  · rw [ended] at resolves
    exact ⟨_, _, start_bind_of_error resolves _, rfl, rfl⟩
  rw [ended] at resolves
  obtain ⟨answer, after, shows, calls, silent, never⟩ := exists_start_present host settings query
    outcome { informed with
      host := course.2.host
      calls := bench.calls ++ said
      lines }
  rw [start_bind_of_ok resolves]
  rcases answer with fault | done
  · refine ⟨_, _, start_bind_of_error shows _, calls, fun none => ?_, fun smooth => ?_⟩
    · nomatch silent none
    · nomatch never smooth
  · exact ⟨_, _, start_bind_of_ok shows _, calls, fun _ => rfl, fun _ => rfl⟩

/-- How opening a symbol goes on a host that never fails. -/
inductive Opens (host : Host η) (settings : Settings) (start : η) (query : Query)
    (said : List (Exchange η)) : Except Fault Outcome → List Call → Prop
  | shown {outcome : Outcome} {waking asking picking : List Call}
      (fits : ∀ misfit, ¬ Misfits host settings start misfit)
      (within : ¬ Resolution.Overruns query.name settings.retryCount settings.retryInterval said)
      (wakes : Wakes waking) (asks : ∀ call ∈ asking, call.isAsking = true)
      (picks : picking = [] ∨ ∃ prompt shown, picking = [.pick prompt shown]) :
      Opens host settings start query said (.ok outcome)
        (waking ++ asking ++ picking ++ query.presentation settings outcome)
  | misfit {misfit : Misfit} (misfits : Misfits host settings start misfit) :
      Opens host settings start query said (.error (.misfit misfit)) []
  | overrun {waking : List Call} (fits : ∀ misfit, ¬ Misfits host settings start misfit)
      (overruns : Resolution.Overruns query.name settings.retryCount settings.retryInterval said)
      (wakes : Wakes waking) :
      Opens host settings start query said (.error (.overflow .wait))
        (waking ++ [.query ("#" ++ query.name), .query query.name])

theorem exists_picking_of_atMostOnePick {picks : List (Exchange η)}
    (picked : Resolution.AtMostOnePick picks) :
    picks.map Exchange.call = [] ∨
      ∃ prompt shown, picks.map Exchange.call = [.pick prompt shown] := by
  obtain ⟨few, all⟩ := picked
  rcases picks with _ | ⟨picker, _ | ⟨next, others⟩⟩
  · exact .inl rfl
  · obtain ⟨prompt, shown, call⟩ := all picker List.mem_cons_self
    exact .inr ⟨prompt, shown, congrArg (fun call => [call]) call⟩
  · simp at few

theorem opens_of_neverFails (never : host.NeverFails) (start : η) (query : Query)
    (token : Option (η → Bool))
    (knownPriority : ∀ name ∈ settings.priority, ∃ kind : Kind, kind.name = name)
    (knownHint : Resolution.HintIsValid query.hint) :
    let alone := opening host (.ok settings) start query token
    let course := resolving host (waking host settings start).2.host query settings token
    Opens host settings start query course.2.exchanges alone.1 alone.2.calls := by
  intro alone course
  have ends := wakingEnds host start settings
  rcases woken : waking host settings start with ⟨answer, bench⟩
  rw [woken] at ends
  cases ends with
  | misfit misfits same none =>
      have opened : alone = _ := opening_of_unwoken query token (congrArg Prod.fst woken)
      rw [opened, woken, none]
      exact .misfit misfits
  | failed fits failed =>
      obtain ⟨call, failure⟩ := failed.failure
      obtain ⟨-, before, raised⟩ := Host.finish_of_failure? failure
      nomatch (never before call).symm.trans raised
  | woken fits awake =>
      obtain ⟨priority, known⟩ := Resolution.exists_ofNames knownPriority
      obtain ⟨admitted, hinted⟩ := Resolution.exists_ofHint knownHint
      have told := Resolution.told_of_valid host token bench.host known hinted
      have order := Resolution.outcome_of_told
        (fun text state => Act.exists_ok_of_finish (never state (.query text)))
        (fun state => (Act.exists_ok_of_finish (never state (.wait settings.retryInterval))).elim
          fun _ waited => waited)
        (fun prompt candidates state =>
          Act.exists_ok_of_finish (never state (.pick prompt candidates))) told
      obtain ⟨answer, after, answers, rest⟩ :=
        exists_start_answering host settings query token bench
      have opened : alone = _ := opening_of_woken query token (congrArg Prod.fst woken)
      rw [woken, answers] at opened
      have same : course = resolving host bench.host query settings token := by
        rw [← show (waking host settings start).2.host = bench.host by rw [woken]]
      rw [opened, same]
      rcases order with ⟨within, ⟨asking, picks, said, asks, picked⟩, outcome, ended⟩ |
        ⟨overruns, empty, ended⟩
      · rw [ended] at rest
        obtain ⟨calls, -, shown⟩ := rest
        rw [said, List.map_append] at calls
        rw [shown never, calls, ← List.append_assoc]
        refine .shown fits within awake.wakes ?_ (exists_picking_of_atMostOnePick picked)
        intro call member
        obtain ⟨exchange, among, rfl⟩ := List.mem_map.mp member
        exact asks exchange among
      · rw [ended] at rest
        rw [rest.1, rest.2]
        have questions : (resolving host bench.host query settings token).2.exchanges.map
            Exchange.call = [.query ("#" ++ query.name), .query query.name] := by
          generalize (resolving host bench.host query settings token).2.exchanges = said at empty
          obtain ⟨⟨first, -⟩, ⟨second, -⟩⟩ := empty
          rw [List.map_cons, List.map_cons, first, second, List.map_nil]
        rw [questions]
        exact .overrun fits overruns awake.wakes

end Bench

/-- A detector of one language. -/
def Script.goDetector : Detector where
  language := .text "go"
  markers := [.text "go.mod"]
  pattern := .text "**/*.go"

namespace Opener

open Bench

theorem aftermath_of_foreign {α β : Type} (host : Host η) (state : η) {answer : Except Fault α}
    (foreign : ∀ error, answer ≠ .error (.request error)) (f : α → β) (otherwise : β) :
    (aftermath host state answer).calls = [] ∧
      (aftermath host state answer).answer (answer.map f) otherwise = answer.map f := by
  rcases answer with fault | answer
  · cases fault with
    | request error => exact absurd rfl (foreign error)
    | _ => exact ⟨rfl, rfl⟩
  · exact ⟨rfl, rfl⟩

/-- A request that is resolved here ends as opening its symbol alone does, unless that ends with an
error of the request. -/
theorem start_handleRequest_of_foreign {host : Host η} {window : Window (Bench η)}
    {symbol project : String} {hint : Option String} {token : Option (η → Bool)}
    {settings : Settings} (givenSymbol : symbol ≠ "") (givenProject : project ≠ "")
    (inForce : window.world.settings = .ok settings)
    (here : Path.isOpenAmong project (host.roots window.world.host))
    (foreign : ∀ error, (opening host (.ok settings) window.world.host ⟨symbol, hint⟩ token).1 ≠
      .error (.request error)) :
    let served := (handleRequest (environment host) (some symbol) (some project) hint
      (token.map fun cancelled bench => cancelled bench.host)).start window
    let alone := opening host (.ok settings) window.world.host ⟨symbol, hint⟩ token
    served.1 = alone.1.map some ∧ served.2.world.calls = window.world.calls ++ alone.2.calls := by
  intro served alone
  obtain ⟨lines, course⟩ := start_handleRequest_of_here host window hint token givenSymbol
    givenProject inForce here
  obtain ⟨none, same⟩ := aftermath_of_foreign host alone.2.host foreign some none
  refine ⟨(congrArg Prod.fst course).trans same, ?_⟩
  rw [show served = _ from course]
  show (window.world.calls ++ alone.2.calls) ++ (aftermath host alone.2.host alone.1).calls = _
  rw [none, List.append_nil]

/-- Every request that is resolved here presents its outcome once and in order. On a host that never
fails, with valid names, the law holds if and only if the patterns of the detectors that matter are
texts and no wait is too long; otherwise the request ends without a call, or after one empty round,
and shows nothing. -/
theorem outcomes_presented_once {host : Host η} {window : Window (Bench η)}
    {symbol project : String} {hint : Option String} {token : Option (η → Bool)}
    {settings : Settings} (givenSymbol : symbol ≠ "") (givenProject : project ≠ "")
    (inForce : window.world.settings = .ok settings)
    (here : Path.isOpenAmong project (host.roots window.world.host))
    (knownPriority : ∀ name ∈ settings.priority, ∃ kind : Kind, kind.name = name)
    (knownHint : Resolution.HintIsValid hint) (never : host.NeverFails) :
    let start := window.world.host
    let said := (resolving host (waking host settings start).2.host ⟨symbol, hint⟩ settings
      token).2.exchanges
    let misfits := ∃ misfit, Misfits host settings start misfit
    let overruns := Resolution.Overruns symbol settings.retryCount settings.retryInterval said
    let served := (handleRequest (environment host) (some symbol) (some project) hint
      (token.map fun cancelled bench => cancelled bench.host)).start window
    ∃ made, served.2.world.calls = window.world.calls ++ made ∧
      (PresentsOnce settings ⟨symbol, hint⟩ made served.1 ↔ ¬ misfits ∧ ¬ overruns) ∧
      (misfits → made = [] ∧ ∃ misfit, served.1 = .error (.misfit misfit)) ∧
      (¬ misfits → overruns → served.1 = .error (.overflow .wait) ∧
        ∃ waking, made = waking ++ [.query ("#" ++ symbol), .query symbol] ∧ Wakes waking) := by
  intro start said misfits overruns served
  have opens := opens_of_neverFails never start ⟨symbol, hint⟩ token knownPriority knownHint
  dsimp only at opens
  have foreign (error : RequestError) :
      (opening host (.ok settings) start ⟨symbol, hint⟩ token).1 ≠ .error (.request error) := by
    intro same
    rw [same] at opens
    nomatch opens
  obtain ⟨ended, calls⟩ := start_handleRequest_of_foreign givenSymbol givenProject inForce here
    foreign
  refine ⟨_, calls, ?_⟩
  rw [show served.1 = _ from ended]
  generalize (opening host (.ok settings) start ⟨symbol, hint⟩ token).1 = answer at opens ⊢
  generalize (opening host (.ok settings) start ⟨symbol, hint⟩ token).2.calls = made at opens ⊢
  cases opens with
  | @shown outcome waking asking picking fits within wakes asks picks =>
      have fit : ¬ misfits := fun ⟨misfit, wrong⟩ => fits misfit wrong
      refine ⟨iff_of_true ?_ ⟨fit, within⟩, fun wrong => absurd wrong fit,
        fun _ beyond => absurd beyond within⟩
      exact ⟨outcome, waking, asking, picking, rfl, rfl, wakes, asks, picks⟩
  | @misfit misfit wrong =>
      have some : misfits := ⟨misfit, wrong⟩
      refine ⟨iff_of_false ?_ fun fit => fit.1 some, fun _ => ⟨rfl, misfit, rfl⟩,
        fun fit => absurd some fit⟩
      rintro ⟨outcome, waking, asking, picking, same, -⟩
      nomatch same
  | @overrun waking fits beyond wakes =>
      have fit : ¬ misfits := fun ⟨misfit, wrong⟩ => fits misfit wrong
      refine ⟨iff_of_false ?_ fun within => within.2 beyond, fun wrong => absurd wrong fit,
        fun _ _ => ⟨rfl, waking, rfl, wakes⟩⟩
      rintro ⟨outcome, waking, asking, picking, same, -⟩
      nomatch same

/-- The law at a project without a marker file, where the index answers at once. -/
theorem outcomes_presented_once_without_marker :
    let settings := { Script.settings with detectors := [Script.goDetector] }
    let start : Script :=
      { answers := [some [⟨"f", .function, { path := "/p/f.go" }, .null⟩]], roots := ["/p"] }
    let served := (handleRequest (environment Script.host) (some "f") (some "/p") none none).start
      { world := { host := start, settings := .ok settings } }
    PresentsOnce settings ⟨"f", none⟩ served.2.world.calls served.1 := by
  intro settings start served
  have here : Path.isOpenAmong "/p" (Script.host.roots start) := by decide +kernel
  have never : Script.host.NeverFails := by
    intro state call
    cases call <;> rfl
  obtain ⟨made, calls, law, -, -⟩ := @outcomes_presented_once Script Script.host
    { world := { host := start, settings := .ok settings } } "f" "/p" none none settings
    (by decide) (by decide) rfl here Script.names (.inl rfl) never
  rw [show served.2.world.calls = made from calls]
  refine law.mpr ⟨?_, ?_⟩
  · rintro ⟨misfit, misfits⟩
    exact absurd misfits (show Detector.anyOpen [] [Script.goDetector] ≠ .error misfit by nofun)
  · rintro ⟨long, -⟩
    exact absurd long (by decide +kernel)

/-- The law fails at an index without symbols, when the wait before the second round is too long:
nothing is shown. -/
theorem not_presentsOnce_of_long_wait :
    let settings := { Script.settings with retryInterval := Resolution.tooLong }
    let served := (handleRequest (environment Script.host) (some "f") (some "/p") none none).start
      { world := { host := { roots := ["/p"] }, settings := .ok settings } }
    ¬ PresentsOnce settings ⟨"f", none⟩ served.2.world.calls served.1 := by
  intro settings served
  have ended : served.1.toOption = none := by decide +kernel
  rintro ⟨outcome, waking, asking, picking, same, -⟩
  rw [same] at ended
  nomatch ended

end Opener

end SymbolJump
