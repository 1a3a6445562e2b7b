/-
# When the index cannot be woken

Waking the index is a help and no part of the answer: a request would go on from wherever it ends.
It does so as long as no search and no load fails and the patterns of the detectors are texts. A
call that fails ends the request instead, with the fault as it is, and the index is not asked.
-/
import SymbolJump.Proofs.Presenting

namespace SymbolJump

open Act Dialogue

variable {η : Type} {host : Host η} {settings : Settings} {query : Query}
  {token : Option (η → Bool)}

theorem Act.start_of_finish {α : Type} {act : Act η α} {state : η} {fault : Fault}
    (failed : (act.finish state).1 = some fault) : (act.start state).1 = .error fault := by
  unfold finish at failed
  rcases course : act.start state with ⟨raised | answer, after⟩
  · rw [course] at failed
    rw [Option.some.inj failed]
  · rw [course] at failed
    nomatch failed

namespace Resolution

theorem ne_nil_of_asked {name : String} {asking : List (Exchange η)}
    {answer : Except Fault (List Candidate)} (asked : Asked host name asking answer) :
    asking ≠ [] := by
  cases asked with
  | first => exact List.cons_ne_nil _ _
  | second => exact List.cons_ne_nil _ _
  | firstFailed => exact List.cons_ne_nil _ _
  | secondFailed => exact List.cons_ne_nil _ _

/-- Rounds of which nothing is said end with an outcome. -/
theorem exists_outcome_of_silent {admitted : Option (List Kind)} {priority : Priority} {left : Nat}
    {state : η} {said : List (Exchange η)} {answer : Except Fault Outcome}
    (told : Told host query admitted priority settings token left state said answer)
    (silent : said = []) : ∃ outcome, answer = .ok outcome := by
  cases told with
  | spent => exact ⟨_, rfl⟩
  | cancelled => exact ⟨_, rfl⟩
  | last => exact ⟨_, rfl⟩
  | unanswered _ asked => exact absurd silent (ne_nil_of_asked asked)
  | endless _ asked => exact absurd silent (ne_nil_of_asked asked)
  | settled _ asked => exact absurd (List.append_eq_nil_iff.mp silent).1 (ne_nil_of_asked asked)
  | unwaited _ asked => exact absurd (List.append_eq_nil_iff.mp silent).1 (ne_nil_of_asked asked)
  | again _ asked => exact absurd (List.append_eq_nil_iff.mp silent).1 (ne_nil_of_asked asked)

/-- A query of which nothing is said ends with an outcome or an error of the request. -/
theorem exists_error_of_silent {start : η} {fault : Fault}
    (silent : (resolving host start query settings token).2.exchanges = [])
    (ended : (resolving host start query settings token).1 = .error fault) :
    ∃ error, fault = .request error := by
  by_cases unknown : ∃ error, NamesUnknown settings query error
  · obtain ⟨error, unknown⟩ := unknown
    rw [resolving, resolve_of_namesUnknown _ _ unknown] at ended
    exact ⟨error, (Except.error.inj ended).symm⟩
  rcases known : Priority.ofNames settings.priority with error | priority
  · exact absurd ⟨error, .inl known⟩ unknown
  rcases hinted : Kind.ofHint query.hint with error | admitted
  · exact absurd ⟨error, .inr ⟨⟨priority, known⟩, hinted⟩⟩ unknown
  obtain ⟨outcome, same⟩ := exists_outcome_of_silent
    (told_of_valid host token start known hinted) silent
  nomatch ended.symm.trans same

end Resolution

namespace Script

/-- A host with a script at a project whose first source file is a link to nothing. -/
def dangling : Host Script :=
  { Script.host with
    findFiles := fun _ _ _ => pure ["/p/a.go"]
    load := fun path => throw (.file { trouble := .missing, path }) }

end Script

namespace Opener

open Bench

/-- A request is served as one that goes on from wherever waking the index ends: the query is
resolved from there, and its outcome is shown and returned. -/
structure GoesOn (host : Host η) (window : Window (Bench η)) (settings : Settings) (query : Query)
    (token : Option (η → Bool))
    (served : Except Fault (Option Outcome) × Window (Bench η)) : Prop where
  answer :
    let rest := (answering host settings query token).start
      (waking host settings window.world.host).2
    served.1 = (aftermath host rest.2.host rest.1).answer (rest.1.map some) none
  calls :
    let rest := (answering host settings query token).start
      (waking host settings window.world.host).2
    served.2.world.calls =
      window.world.calls ++ rest.2.calls ++ (aftermath host rest.2.host rest.1).calls

variable {window : Window (Bench η)}

/-- What is done once the index is awake is not over without a call, unless it ends with an
outcome. -/
theorem exists_answer_of_silent {bench : Bench η} {rest : Except Fault Outcome × Bench η}
    (course : (answering host settings query token).start bench = rest)
    (silent : bench.calls =
      rest.2.calls ++ (aftermath host rest.2.host rest.1).calls) :
    ∃ outcome, rest.1 = .ok outcome := by
  obtain ⟨answer, after, same, goes⟩ := exists_start_answering host settings query token bench
  obtain rfl := course.symm.trans same
  dsimp only at goes silent ⊢
  have short := congrArg List.length silent
  rw [List.length_append] at short
  rcases ended : (resolving host bench.host query settings token).1 with fault | outcome
  · rw [ended] at goes
    obtain ⟨rfl, calls⟩ := goes
    rw [calls, List.length_append, List.length_map] at short
    obtain ⟨error, rfl⟩ := Resolution.exists_error_of_silent
      (List.length_eq_zero_iff.mp (by omega)) ended
    rw [aftermath_calls_of_request, List.length_singleton] at short
    omega
  · rw [ended] at goes
    obtain ⟨calls, quiet, -⟩ := goes
    rw [calls, List.length_append, List.length_append] at short
    exact ⟨outcome, quiet (List.length_eq_zero_iff.mp (by omega))⟩

theorem wakes_waking (host : Host η) (settings : Settings) (start : η) :
    Wakes (waking host settings start).2.calls := by
  have ends := wakingEnds host start settings
  generalize waking host settings start = course at ends ⊢
  obtain ⟨answer, bench⟩ := course
  cases ends with
  | woken _ woken => exact woken.wakes
  | failed _ failed => exact failed.wakes
  | misfit _ _ none =>
      rw [show bench.calls = [] from none]
      exact wakes_nil

/-- Waking the index ends with the fault of its last call, or with a misfit. -/
theorem fault_of_waking {start : η} {fault : Fault}
    (failed : (waking host settings start).1 = .error fault) :
    (∃ call, host.failure? start (waking host settings start).2.calls = some ⟨call, fault, []⟩) ∨
      ∃ misfit, Misfits host settings start misfit ∧ fault = .misfit misfit := by
  have ends := wakingEnds host start settings
  generalize waking host settings start = course at failed ends ⊢
  obtain ⟨answer, bench⟩ := course
  cases ends with
  | woken => nomatch failed
  | failed _ broken =>
      obtain rfl := Except.error.inj failed
      exact .inl broken.failure
  | misfit misfits => exact .inr ⟨_, misfits, (Except.error.inj failed).symm⟩

/-- Waking the index is best effort: a request that is resolved here goes on from wherever it ends
if and only if none of its calls fails and the patterns of the detectors that matter are texts. A
call that fails, with a fault that is no error of a request, ends the request with that fault, and
no question is asked. -/
theorem request_goes_on_iff {symbol project : String} {hint : Option String}
    (givenSymbol : symbol ≠ "") (givenProject : project ≠ "")
    (inForce : window.world.settings = .ok settings)
    (here : Path.isOpenAmong project (host.roots window.world.host))
    (searchesForeign : ∀ wanted excluded limit state error,
      ((host.findFiles wanted excluded limit).start state).1 ≠ .error (.request error))
    (loadsForeign : ∀ path state error,
      ((host.load path).start state).1 ≠ .error (.request error)) :
    let woken := waking host settings window.world.host
    let served := (handleRequest (environment host) (some symbol) (some project) hint
      (token.map fun cancelled bench => cancelled bench.host)).start window
    (GoesOn host window settings ⟨symbol, hint⟩ token served ↔
      host.failure? window.world.host woken.2.calls = none ∧
        ∀ misfit, ¬ Misfits host settings window.world.host misfit) ∧
    Wakes woken.2.calls ∧
    ∀ fault, woken.1 = .error fault →
      served.1 = .error fault ∧ served.2.world.calls = window.world.calls ++ woken.2.calls ∧
        ((∃ call, host.failure? window.world.host woken.2.calls = some ⟨call, fault, []⟩) ∨
          ∃ misfit, Misfits host settings window.world.host misfit ∧ fault = .misfit misfit) := by
  intro woken served
  have wakes := wakes_waking host settings window.world.host
  have foreign {fault : Fault} (failed : woken.1 = .error fault) (error : RequestError) :
      fault ≠ .request error := by
    rintro rfl
    rcases fault_of_waking failed with ⟨call, failure⟩ | ⟨misfit, -, same⟩
    · obtain ⟨member, before, raised⟩ := Host.finish_of_failure? failure
      rcases wakes.eq_of_mem member with ⟨wanted, excluded, limit, rfl⟩ | ⟨path, rfl⟩
      · exact searchesForeign wanted excluded limit before error (Act.start_of_finish raised)
      · exact loadsForeign path before error (Act.start_of_finish raised)
    · nomatch same
  have ends {fault : Fault} (failed : woken.1 = .error fault) :
      served.1 = .error fault ∧ served.2.world.calls = window.world.calls ++ woken.2.calls := by
    have opened := opening_of_unwoken ⟨symbol, hint⟩ token failed
    have other (error : RequestError) :
        (opening host (.ok settings) window.world.host ⟨symbol, hint⟩ token).1 ≠
          .error (.request error) := by
      rw [opened]
      exact fun same => foreign failed error (Except.error.inj same)
    have course := start_handleRequest_of_foreign givenSymbol givenProject inForce here other
    rwa [opened] at course
  refine ⟨?_, wakes, fun fault failed => ⟨(ends failed).1, (ends failed).2, fault_of_waking failed⟩⟩
  rw [← waking_eq_ok_iff]
  constructor
  · rintro ⟨answered, called⟩
    rcases failed : (waking host settings window.world.host).1 with fault | done
    · obtain ⟨ended, calls⟩ := ends failed
      dsimp only at answered called
      rw [calls, List.append_assoc, List.append_cancel_left_eq] at called
      obtain ⟨outcome, same⟩ := exists_answer_of_silent rfl called
      rw [ended, same] at answered
      nomatch answered
    · rfl
  · intro awake
    have opened := opening_of_woken ⟨symbol, hint⟩ token awake
    obtain ⟨lines, course⟩ := start_handleRequest_of_here host window hint token givenSymbol
      givenProject inForce here
    rw [opened] at course
    constructor
    · exact congrArg Prod.fst course
    · exact congrArg (fun course => course.2.world.calls) course

/-- A request goes on when the first source file that is searched for can be loaded. -/
theorem request_goes_on_of_loaded :
    let settings := { Script.settings with detectors := [Script.goDetector] }
    let start : Script :=
      { answers := [some [⟨"f", .function, { path := "/p/f.go" }, .null⟩]], roots := ["/p"] }
    let window : Window (Bench Script) := { world := { host := start, settings := .ok settings } }
    GoesOn Script.host window settings ⟨"f", none⟩ none
      ((handleRequest (environment Script.host) (some "f") (some "/p") none none).start
        window) := by
  intro settings start window
  have here : Path.isOpenAmong "/p" (Script.host.roots start) := by decide +kernel
  have law := (@request_goes_on_iff Script Script.host settings none window "f" "/p" none
    (by decide) (by decide) rfl here (fun _ _ _ _ _ => nofun) (fun _ _ _ => nofun)).1
  refine law.mpr ⟨by decide +kernel, fun misfit misfits => ?_⟩
  exact absurd misfits (show Detector.anyOpen [] [Script.goDetector] ≠ .error misfit by nofun)

/-- A source file that is a link to nothing ends a request, although the index would have found the
symbol. -/
theorem not_goesOn_of_dangling_source :
    let settings := { Script.settings with detectors := [Script.goDetector] }
    let start : Script :=
      { answers := [some [⟨"f", .function, { path := "/p/f.go" }, .null⟩]], roots := ["/p"] }
    let window : Window (Bench Script) := { world := { host := start, settings := .ok settings } }
    ¬ GoesOn Script.dangling window settings ⟨"f", none⟩ none
      ((handleRequest (environment Script.dangling) (some "f") (some "/p") none none).start
        window) := by
  intro settings start window
  rintro ⟨answered, -⟩
  have same := congrArg Except.toOption answered
  revert same
  decide +kernel

end Opener

end SymbolJump
