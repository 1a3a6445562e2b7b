/-
# The law of retries

Where the index never fails, the calls of a query are settled by the first round that gets
something. Before it come empty rounds, each followed by one wait; after it comes at most one
picker. When no round gets anything, as many rounds are made as are allowed, with a wait between
any two, and nothing is found.

One thing stands against the law: a wait that is too long for the host is not made, and a second
round then never comes about.
-/
import SymbolJump.Proofs.Settling

namespace SymbolJump.Resolution

open Dialogue

variable {η : Type}

/-- A round that gets nothing. -/
inductive EmptyRound (name : String) : List (Exchange η) → Prop
  | both {first second : Exchange η} (unanswered : first.Answers ("#" ++ name) [])
      (other : second.Answers name []) : EmptyRound name [first, second]

/-- A round that gets something, under the first spelling or else under the second. -/
inductive FullRound (name : String) : List (Exchange η) → Prop
  | first {only : Exchange η} {symbols : List Candidate}
      (answered : only.Answers ("#" ++ name) symbols) (some : symbols ≠ []) :
      FullRound name [only]
  | second {empty other : Exchange η} {symbols : List Candidate}
      (unanswered : empty.Answers ("#" ++ name) []) (answered : other.Answers name symbols)
      (some : symbols ≠ []) : FullRound name [empty, other]

/-- A number of rounds that get nothing, each followed by one wait. -/
inductive Waited (name : String) (interval : Nat) : Nat → List (Exchange η) → Prop
  | nil : Waited name interval 0 []
  | cons {count : Nat} {asking rest : List (Exchange η)} {pause : Exchange η}
      (empty : EmptyRound name asking) (waits : pause.call = .wait interval)
      (others : Waited name interval count rest) :
      Waited name interval (count + 1) (asking ++ pause :: rest)

/-- What is said in a number of rounds, and how it ends. -/
inductive RetryLaw (name : String) (rounds interval : Nat) :
    List (Exchange η) → Except Fault Outcome → Prop
  /-- No round gets anything: there is no wait after the last one. -/
  | exhausted {count : Nat} {before asking : List (Exchange η)}
      (waited : Waited name interval count before) (all : count + 1 = rounds)
      (empty : EmptyRound name asking) :
      RetryLaw name rounds interval (before ++ asking) (.ok .notFound)
  /-- A round gets something, and no question or wait comes after it. -/
  | settled {count : Nat} {before asking picks : List (Exchange η)}
      {answer : Except Fault Outcome} (waited : Waited name interval count before)
      (left : count < rounds) (full : FullRound name asking) (picked : AtMostOnePick picks) :
      RetryLaw name rounds interval (before ++ asking ++ picks) answer

/-- The one case outside the law: the first round gets nothing, another one is allowed, and the
wait before it is too long for the host. -/
def Overruns (name : String) (rounds interval : Nat) (said : List (Exchange η)) : Prop :=
  tooLong ≤ interval ∧ 2 ≤ rounds ∧ ∃ asking rest, EmptyRound name asking ∧ said = asking ++ rest

/-- A token that is not cancelled at the start of any round: neither at first nor after a
wait. -/
def StaysOpen (token : Option (η → Bool)) (interval : Nat) (start : η)
    (said : List (Exchange η)) : Prop :=
  ∀ cancelled, token = some cancelled → cancelled start = false ∧
    ∀ exchange ∈ said, exchange.call = .wait interval → cancelled exchange.after = false

section Told

variable {host : Host η} {query : Query} {admitted : Option (List Kind)} {priority : Priority}
  {settings : Settings} {token : Option (η → Bool)}

theorem emptyRound_of_asked {name : String} {asking : List (Exchange η)}
    (asked : Asked host name asking (.ok [])) : EmptyRound name asking := by
  cases asked with
  | first answered some => exact absurd rfl some
  | second unanswered answered => exact .both unanswered answered

theorem fullRound_of_asked {name : String} {asking : List (Exchange η)}
    {symbols : List Candidate} (asked : Asked host name asking (.ok symbols))
    (some : symbols ≠ []) : FullRound name asking := by
  cases asked with
  | first answered some => exact .first answered some
  | second unanswered answered => exact .second unanswered answered some

theorem not_asked_error
    (answers : ∀ text state, ∃ answer, ((host.query text).start state).1 = .ok answer)
    {name : String} {asking : List (Exchange η)} {fault : Fault} :
    ¬ Asked host name asking (.error fault) := by
  intro asked
  cases asked with
  | firstFailed failed =>
      obtain ⟨answer, answered⟩ := answers _ _
      nomatch failed.symm.trans answered
  | secondFailed _ failed =>
      obtain ⟨answer, answered⟩ := answers _ _
      nomatch failed.symm.trans answered

theorem RetryLaw.again {name : String} {rounds interval : Nat} {asking rest : List (Exchange η)}
    {pause : Exchange η} {answer : Except Fault Outcome} (empty : EmptyRound name asking)
    (waits : pause.call = .wait interval) (law : RetryLaw name rounds interval rest answer) :
    RetryLaw name (rounds + 1) interval (asking ++ pause :: rest) answer := by
  cases law with
  | exhausted waited all last =>
      have law := RetryLaw.exhausted (.cons empty waits waited) (congrArg (· + 1) all) last
      rwa [List.append_assoc, List.cons_append] at law
  | settled waited left full picked =>
      have law : RetryLaw name (rounds + 1) interval _ answer :=
        .settled (.cons empty waits waited) (Nat.succ_lt_succ left) full picked
      simpa only [List.append_assoc, List.cons_append] using law

/-- A round that gets something does not begin like one that gets nothing. -/
theorem FullRound.not_empty {name : String} {asking picks empty rest : List (Exchange η)}
    (full : FullRound name asking) (vain : EmptyRound name empty) :
    asking ++ picks ≠ empty ++ rest := by
  intro same
  obtain ⟨unanswered, other⟩ := vain
  cases full with
  | first answered some =>
      obtain ⟨rfl, -⟩ := List.cons.inj same
      exact some (answered.unique unanswered)
  | second _ answered some =>
      obtain ⟨-, same⟩ := List.cons.inj same
      obtain ⟨rfl, -⟩ := List.cons.inj same
      exact some (answered.unique other)

theorem FullRound.not_overruns {name : String} {rounds interval : Nat}
    {asking picks : List (Exchange η)} (full : FullRound name asking) :
    ¬ Overruns name rounds interval (asking ++ picks) := by
  rintro ⟨-, -, vain, rest, empty, same⟩
  exact full.not_empty empty same

theorem EmptyRound.overruns {name : String} {left interval : Nat} {asking : List (Exchange η)}
    (empty : EmptyRound name asking) (long : tooLong ≤ interval) :
    Overruns name (left + 2) interval asking :=
  ⟨long, Nat.le_add_left 2 left, asking, [], empty, (List.append_nil asking).symm⟩

theorem FullRound.exists_answer {name : String} {asking : List (Exchange η)}
    (full : FullRound name asking) :
    ∃ exchange ∈ asking, ∃ answer, exchange.reply = .symbols answer ∧ answer.getD [] ≠ [] := by
  cases full with
  | first answered some =>
      obtain ⟨-, answer, replied, rfl⟩ := answered
      exact ⟨_, List.mem_cons_self, answer, replied, some⟩
  | second _ answered some =>
      obtain ⟨-, answer, replied, rfl⟩ := answered
      exact ⟨_, List.mem_cons_of_mem _ List.mem_cons_self, answer, replied, some⟩

theorem EmptyRound.no_wait {name : String} {said : List (Exchange η)}
    (vain : EmptyRound name said) (exchange : Exchange η) (member : exchange ∈ said)
    (interval : Nat) : exchange.call ≠ .wait interval := by
  obtain ⟨⟨first, -⟩, ⟨second, -⟩⟩ := vain
  intro waits
  rcases List.mem_cons.mp member with rfl | member
  · exact Call.noConfusion (first.symm.trans waits)
  · rw [List.mem_singleton.mp member] at waits
    exact Call.noConfusion (second.symm.trans waits)

/-- One empty round that ends with a fault is outside the law. -/
theorem not_retryLaw_of_empty {name : String} {rounds interval : Nat}
    {said : List (Exchange η)} {fault : Fault} (vain : EmptyRound name said) :
    ¬ RetryLaw name rounds interval said (.error fault) := by
  intro law
  cases law with
  | settled waited left full picked =>
      cases waited with
      | nil => exact full.not_empty vain (List.append_nil _).symm
      | cons empty waits others => exact vain.no_wait _ (by simp) _ waits

theorem StaysOpen.after_wait {interval : Nat} {state : η} {asking rest : List (Exchange η)}
    {pause : Exchange η} (stays : StaysOpen token interval state (asking ++ pause :: rest))
    (waits : pause.call = .wait interval) : StaysOpen token interval pause.after rest := by
  intro cancelled given
  obtain ⟨-, later⟩ := stays cancelled given
  refine ⟨later pause (by simp) waits, fun exchange member => later exchange ?_⟩
  exact List.mem_append_right _ (List.mem_cons_of_mem _ member)

/-- What is said in rounds of questions that never fail keeps to the law, or is one empty round
before a wait that is too long. -/
theorem law_of_told
    (answers : ∀ text state, ∃ answer, ((host.query text).start state).1 = .ok answer)
    (waits : ∀ state, ((host.wait settings.retryInterval).start state).1 = .ok ())
    {left : Nat} {state : η} {said : List (Exchange η)} {answer : Except Fault Outcome}
    (told : Told host query admitted priority settings token left state said answer)
    (positive : 0 < left) (stays : StaysOpen token settings.retryInterval state said) :
    (¬ Overruns query.name left settings.retryInterval said ∧
      RetryLaw query.name left settings.retryInterval said answer) ∨
    (Overruns query.name left settings.retryInterval said ∧
      EmptyRound query.name said ∧ answer = .error (.overflow .wait)) := by
  induction told with
  | spent => exact absurd positive (Nat.lt_irrefl 0)
  | @cancelled left state now =>
      cases token with
      | none => nomatch now
      | some cancelled => exact absurd ((stays cancelled rfl).1.symm.trans now) nofun
  | unanswered _ asked => exact absurd asked (not_asked_error answers)
  | @settled left state asking symbols course _ asked some settles =>
      have full := fullRound_of_asked asked some
      have picked := atMostOnePick_settling host query admitted priority settings
        (stateAfter state asking) symbols
      rw [settles] at picked
      exact .inl ⟨full.not_overruns, .settled .nil (Nat.succ_pos left) full picked⟩
  | last _ asked =>
      have empty := emptyRound_of_asked asked
      exact .inl ⟨fun overrun => absurd overrun.2.1 (by decide), .exhausted .nil rfl empty⟩
  | @endless left state asking _ asked long =>
      have empty := emptyRound_of_asked asked
      exact .inr ⟨empty.overruns long, empty, rfl⟩
  | unwaited _ asked failed => nomatch failed.symm.trans (waits _)
  | again _ asked fits told ih =>
      rcases ih (Nat.succ_pos _) (stays.after_wait rfl) with ⟨-, law⟩ | ⟨overrun, -⟩
      · refine .inl ⟨fun overrun => absurd fits (Nat.not_lt_of_le overrun.1), ?_⟩
        exact law.again (emptyRound_of_asked asked) rfl
      · exact absurd fits (Nat.not_lt_of_le overrun.1)

end Told

/-- The law of retries. With valid names, an index that never fails, waits that never fail and a
token that stays open, what is said of a query keeps to the law, except where the first round
gets nothing and the wait before the second is too long: there the query ends with an overflow
after one round. -/
theorem retries_follow_law {host : Host η} {start : η} {query : Query} {settings : Settings}
    {token : Option (η → Bool)}
    (knownPriority : ∀ name ∈ settings.priority, ∃ kind : Kind, kind.name = name)
    (knownHint : HintIsValid query.hint) (rounds : 1 ≤ settings.retryCount)
    (answers : ∀ text state, ∃ answer, ((host.query text).start state).1 = .ok answer)
    (waits : ∀ state, ((host.wait settings.retryInterval).start state).1 = .ok ())
    (stays : StaysOpen token settings.retryInterval start
      (resolving host start query settings token).2.exchanges) :
    let course := resolving host start query settings token
    let overruns := Overruns query.name settings.retryCount settings.retryInterval
      course.2.exchanges
    (RetryLaw query.name settings.retryCount settings.retryInterval course.2.exchanges course.1 ↔
        ¬ overruns) ∧
      (overruns →
        EmptyRound query.name course.2.exchanges ∧ course.1 = .error (.overflow .wait)) := by
  intro course overruns
  obtain ⟨priority, known⟩ := exists_ofNames knownPriority
  obtain ⟨admitted, hinted⟩ := exists_ofHint knownHint
  have told := told_of_valid host token start known hinted
  rcases law_of_told answers waits told rounds stays with ⟨within, law⟩ | ⟨overrun, vain, ended⟩
  · exact ⟨iff_of_true law within, fun overrun => absurd overrun within⟩
  · refine ⟨iff_of_false ?_ (not_not_intro overrun), fun _ => ⟨vain, ended⟩⟩
    rw [ended]
    exact not_retryLaw_of_empty vain

/-- The law at an index that answers in the second round. -/
theorem retries_follow_law_second_round :
    let start : Script :=
      { answers := [none, some [], some [⟨"f", .function, { path := "/b/f" }, .null⟩]] }
    let query : Query := ⟨"f", some "Function"⟩
    RetryLaw query.name Script.settings.retryCount Script.settings.retryInterval
      (resolving Script.host start query Script.settings none).2.exchanges
      (resolving Script.host start query Script.settings none).1 := by
  intro start query
  have hint : HintIsValid query.hint := .inr (.inr ⟨.function, rfl⟩)
  have stays : StaysOpen none Script.settings.retryInterval start
      (resolving Script.host start query Script.settings none).2.exchanges :=
    fun _ given => nomatch given
  have fits : Script.settings.retryInterval < tooLong := by decide +kernel
  have answers : ∀ text (state : Script), ∃ answer,
      ((Script.host.query text).start state).1 = .ok answer := fun _ _ => ⟨_, rfl⟩
  have waits : ∀ state : Script,
      ((Script.host.wait Script.settings.retryInterval).start state).1 = .ok () := fun _ => rfl
  have law := (retries_follow_law Script.names hint (by decide) answers waits stays).1
  refine law.mpr ?_
  rintro ⟨long, -⟩
  exact absurd fits (Nat.not_lt_of_le long)

/-- The law fails at an index without symbols, when the wait before the second round is the
shortest one that is too long. -/
theorem not_retryLaw_of_long_wait :
    let settings := { Script.settings with retryInterval := tooLong }
    ¬ RetryLaw "f" 2 tooLong (resolving Script.host {} ⟨"f", none⟩ settings none).2.exchanges
      (resolving Script.host {} ⟨"f", none⟩ settings none).1 := by
  intro settings
  have ended : (resolving Script.host {} ⟨"f", none⟩ settings none).1.toOption = none := by
    decide +kernel
  have replies : (resolving Script.host {} ⟨"f", none⟩ settings none).2.exchanges.map
      Exchange.reply = [.symbols none, .symbols none] := by
    decide +kernel
  revert ended replies
  generalize (resolving Script.host {} ⟨"f", none⟩ settings none).2.exchanges = said
  generalize (resolving Script.host {} ⟨"f", none⟩ settings none).1 = answer
  intro ended replies law
  cases law with
  | exhausted waited all empty => nomatch ended
  | @settled count before asking picks answer waited left full picked =>
      obtain ⟨exchange, member, symbols, replied, some⟩ := full.exists_answer
      have made : exchange.reply ∈ (before ++ asking ++ picks).map Exchange.reply :=
        List.mem_map_of_mem (by simp [member])
      rw [replies, replied] at made
      simp only [List.mem_cons, Reply.symbols.injEq, List.not_mem_nil, or_false, or_self] at made
      rw [made] at some
      exact some rfl

end SymbolJump.Resolution
