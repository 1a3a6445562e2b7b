/-
# What is said in rounds

The dialogue of a query follows a grammar. A round asks under one spelling, or under both when
the first one gets nothing. A round that gets something is the last one, and settles the query;
one that gets nothing is followed by a wait, unless no round is left. The grammar is an inductive
relation with one case for each way in which a round can end, so a law about whole queries is
proved by induction on it, case by case.
-/
import SymbolJump.Proofs.Dialogue

namespace SymbolJump.Resolution

open Act Dialogue

variable {η : Type} (host : Host η)

/-- The questions of one round under both spellings of a name, and what they end with. -/
inductive Asked (name : String) : List (Exchange η) → Except Fault (List Candidate) → Prop
  | first {only : Exchange η} {symbols : List Candidate}
      (answered : only.Answers ("#" ++ name) symbols) (some : symbols ≠ []) :
      Asked name [only] (.ok symbols)
  | second {empty other : Exchange η} {symbols : List Candidate}
      (unanswered : empty.Answers ("#" ++ name) []) (answered : other.Answers name symbols) :
      Asked name [empty, other] (.ok symbols)
  | firstFailed {state : η} {fault : Fault}
      (failed : ((host.query ("#" ++ name)).start state).1 = .error fault) :
      Asked name [exchangeOf (.query ("#" ++ name)) .symbols (host.query ("#" ++ name)) state]
        (.error fault)
  | secondFailed {empty : Exchange η} {state : η} {fault : Fault}
      (unanswered : empty.Answers ("#" ++ name) [])
      (failed : ((host.query name).start state).1 = .error fault) :
      Asked name [empty, exchangeOf (.query name) .symbols (host.query name) state]
        (.error fault)

/-- A question and its exchange. -/
theorem answers_exchangeOf {text : String} {state : η} {answer : Option (List Candidate)}
    (answered : ((host.query text).start state).1 = .ok answer) :
    (exchangeOf (.query text) .symbols (host.query text) state).Answers text (answer.getD []) :=
  ⟨rfl, answer, by rw [exchangeOf, answered]; rfl, rfl⟩

/-- The course of a question and what follows it. -/
theorem start_askFirst_cons (spelling : String) (rest : List String) (dialogue : Dialogue η) :
    (askFirst (Dialogue.hostOf host) (spelling :: rest)).start dialogue =
      let after := dialogue.extend
        [exchangeOf (.query spelling) .symbols (host.query spelling) dialogue.host]
      match ((host.query spelling).start dialogue.host).1 with
      | .error fault => (.error fault, after)
      | .ok answer =>
          if (answer.getD []).isEmpty then
            (askFirst (Dialogue.hostOf host) rest).start after
          else (.ok (answer.getD []), after) := by
  rw [askFirst, start_bind, start_query]
  rcases ((host.query spelling).start dialogue.host).1 with fault | answer
  · rfl
  · dsimp only
    rw [start_bind_of_ok (Dialogue.start_debug host _ _)]
    split
    · rfl
    · rfl

/-- A round of questions is said as the grammar has it. -/
theorem start_findSymbols (name : String) (dialogue : Dialogue η) :
    ∃ said answer, Asked host name said answer ∧
      (findSymbols (Dialogue.hostOf host) name).start dialogue =
        (answer, dialogue.extend said) := by
  unfold findSymbols spellings
  rw [start_askFirst_cons]
  dsimp only
  rcases first : ((host.query ("#" ++ name)).start dialogue.host).1 with fault | answer
  · exact ⟨_, _, .firstFailed first, rfl⟩
  have answered := answers_exchangeOf host first
  dsimp only
  rcases symbols : answer.getD [] with _ | ⟨candidate, others⟩
  case cons =>
    rw [symbols] at answered
    exact ⟨_, _, .first answered (List.cons_ne_nil _ _), rfl⟩
  rw [symbols] at answered
  rw [List.isEmpty_nil, if_pos rfl, start_askFirst_cons]
  dsimp only
  rw [extend_extend]
  rcases second : ((host.query name).start _).1 with fault | answer
  · exact ⟨_, _, .secondFailed answered second, rfl⟩
  have last := answers_exchangeOf host second
  dsimp only
  split
  · next empty =>
      rw [List.isEmpty_iff.mp empty] at last
      exact ⟨_, _, .second answered last, rfl⟩
  · exact ⟨_, _, .second answered last, rfl⟩

variable (query : Query) (admitted : Option (List Kind)) (priority : Priority)
  (settings : Settings) (token : Option (η → Bool))

/-- Settling a query, as a dialogue of its own from a state of the host. -/
def settling (state : η) (symbols : List Candidate) : Except Fault Outcome × Dialogue η :=
  (settle (Dialogue.hostOf host) query admitted priority settings.many symbols).start
    { host := state }

/-- The exchange that a wait is. -/
def waiting (state : η) : Exchange η :=
  exchangeOf (.wait settings.retryInterval) (fun _ => .done) (host.wait settings.retryInterval)
    state

/-- Whether a token ends a query before its next round. -/
def stops (token : Option (η → Bool)) (state : η) : Bool :=
  (token.map (· state)).getD false

/-- What is said in the rounds that are left, from a state of the host, and how it ends. A round is
made only while the token does not end the query. -/
inductive Told : (left : Nat) → η → List (Exchange η) → Except Fault Outcome → Prop
  | spent {state : η} : Told 0 state [] (.ok .notFound)
  | cancelled {left : Nat} {state : η} (now : stops token state = true) :
      Told (left + 1) state [] (.ok .cancelled)
  | unanswered {left : Nat} {state : η} {asking : List (Exchange η)} {fault : Fault}
      (goesOn : stops token state = false)
      (asked : Asked host query.name asking (.error fault)) :
      Told (left + 1) state asking (.error (.request (asRequestError fault)))
  | settled {left : Nat} {state : η} {asking : List (Exchange η)} {symbols : List Candidate}
      {course : Except Fault Outcome × Dialogue η} (goesOn : stops token state = false)
      (asked : Asked host query.name asking (.ok symbols)) (some : symbols ≠ [])
      (settles : settling host query admitted priority settings (stateAfter state asking) symbols =
        course) :
      Told (left + 1) state (asking ++ course.2.exchanges)
        (course.1.mapError fun fault => .request (asRequestError fault))
  | last {state : η} {asking : List (Exchange η)} (goesOn : stops token state = false)
      (asked : Asked host query.name asking (.ok [])) : Told 1 state asking (.ok .notFound)
  | endless {left : Nat} {state : η} {asking : List (Exchange η)}
      (goesOn : stops token state = false)
      (asked : Asked host query.name asking (.ok []))
      (long : tooLong ≤ settings.retryInterval) :
      Told (left + 2) state asking (.error (.overflow .wait))
  | unwaited {left : Nat} {state : η} {asking : List (Exchange η)} {fault : Fault}
      (goesOn : stops token state = false)
      (asked : Asked host query.name asking (.ok []))
      (failed : ((host.wait settings.retryInterval).start (stateAfter state asking)).1 =
        .error fault) :
      Told (left + 2) state (asking ++ [waiting host settings (stateAfter state asking)])
        (.error fault)
  | again {left : Nat} {state : η} {asking rest : List (Exchange η)}
      {answer : Except Fault Outcome} (goesOn : stops token state = false)
      (asked : Asked host query.name asking (.ok []))
      (fits : settings.retryInterval < tooLong)
      (told : Told (left + 1) (waiting host settings (stateAfter state asking)).after rest
        answer) :
      Told (left + 2) state
        (asking ++ waiting host settings (stateAfter state asking) :: rest) answer

/-- A round ends with its questions when they get nothing, and is settled otherwise. -/
theorem start_round (dialogue : Dialogue η) :
    ∃ asking answer, Asked host query.name asking answer ∧
      (round (Dialogue.hostOf host) query admitted priority settings.many).start dialogue =
        match answer with
        | .error fault => (.error fault, dialogue.extend asking)
        | .ok [] => (.ok none, dialogue.extend asking)
        | .ok symbols =>
            let course := settling host query admitted priority settings
              (stateAfter dialogue.host asking) symbols
            (course.1.map some, dialogue.extend (asking ++ course.2.exchanges)) := by
  obtain ⟨asking, answer, asked, course⟩ := start_findSymbols host query.name dialogue
  refine ⟨asking, answer, asked, ?_⟩
  rw [round, start_bind, course]
  rcases answer with fault | _ | ⟨candidate, others⟩
  · rfl
  · rfl
  · dsimp only
    rw [if_neg (by simp), start_bind_of_ok (Dialogue.start_debug host _ _), start_bind_pure,
      start_eq_extend _ ((hostOf_simulates host _).settle (Query.Alike.refl query) _ _ _ _),
      extend_extend]
    rfl

theorem start_pause (dialogue : Dialogue η) :
    (pause (Dialogue.hostOf host) settings).start dialogue =
      if settings.retryInterval < tooLong then
        (((host.wait settings.retryInterval).start dialogue.host).1,
          dialogue.extend [waiting host settings dialogue.host])
      else (.error (.overflow .wait), dialogue) := by
  unfold pause
  split
  · exact start_wait host _ dialogue
  · rfl

/-- The rounds that are left are told as the grammar has it. -/
theorem start_rounds (number left : Nat) (dialogue : Dialogue η) :
    ∃ said answer,
      Told host query admitted priority settings token left dialogue.host said answer ∧
      (rounds (Dialogue.hostOf host) query admitted priority settings
        (token.map fun cancelled dialogue => cancelled dialogue.host) number left).start dialogue =
        (answer, dialogue.extend said) := by
  induction left generalizing number dialogue with
  | zero => exact ⟨[], _, .spent, by rw [extend_nil]; rfl⟩
  | succ left ih =>
      unfold rounds
      rw [start_bind_of_ok (start_get _), Option.map_map]
      dsimp only
      split
      · next now => exact ⟨[], _, .cancelled now, by rw [extend_nil]; rfl⟩
      rename_i running
      have goesOn : stops token dialogue.host = false := eq_false_of_ne_true running
      obtain ⟨asking, answer, asked, course⟩ :=
        start_round host query admitted priority settings dialogue
      rw [start_bind_of_ok (Dialogue.start_debug host _ _), start_bind, start_tryCatch, course]
      rcases answer with fault | _ | ⟨candidate, others⟩
      · exact ⟨asking, _, .unanswered goesOn asked, rfl⟩
      -- An empty round is followed by a wait and the other rounds, if there are any.
      · dsimp only
        cases left with
        | zero => exact ⟨asking, _, .last goesOn asked, rfl⟩
        | succ left =>
            rw [if_pos (Nat.succ_ne_zero left), start_bind, start_pause]
            by_cases fits : settings.retryInterval < tooLong
            case neg =>
              rw [if_neg fits]
              exact ⟨asking, _, .endless goesOn asked (Nat.le_of_not_lt fits), rfl⟩
            rw [if_pos fits]
            rcases wait : ((host.wait settings.retryInterval).start _).1 with fault | done
            · refine ⟨_, _, .unwaited goesOn asked wait, ?_⟩
              rw [extend_extend]
              rfl
            · obtain ⟨rest, answer, told, course⟩ := ih (number + 1)
                ((dialogue.extend asking).extend
                  [waiting host settings (dialogue.extend asking).host])
              refine ⟨_, _, .again goesOn asked fits told, ?_⟩
              dsimp only
              rw [course, extend_extend, extend_extend]
              rfl
      · dsimp only
        rcases settles : settling host query admitted priority settings
          (stateAfter dialogue.host asking) (candidate :: others) with ⟨answer, settled⟩
        refine ⟨_, _, .settled goesOn asked (List.cons_ne_nil _ _) settles, ?_⟩
        rcases answer with fault | outcome
        · rfl
        · rfl

theorem exists_foldlM {α β ε : Type} {f : β → α → Except ε β} {items : List α}
    (steps : ∀ value, ∀ item ∈ items, ∃ next, f value item = .ok next) (start : β) :
    ∃ value, items.foldlM f start = .ok value := by
  induction items generalizing start with
  | nil => exact ⟨start, rfl⟩
  | cons item rest ih =>
      obtain ⟨next, step⟩ := steps start item List.mem_cons_self
      rw [List.foldlM_cons, step]
      exact ih (fun value item later => steps value item (List.mem_cons_of_mem _ later)) next

/-- A list of names of kinds describes a priority. -/
theorem exists_ofNames {names : List String}
    (valid : ∀ name ∈ names, ∃ kind : Kind, kind.name = name) :
    ∃ priority, Priority.ofNames names = .ok priority := by
  refine exists_foldlM (fun priority name member => ?_) []
  obtain ⟨kind, rfl⟩ := valid name member
  rw [Kind.ofName?_name]
  exact ⟨_, rfl⟩

/-- A hint that names a kind, or nothing: there is none, or it is empty. -/
def HintIsValid (hint : Option String) : Prop :=
  hint = none ∨ hint = some "" ∨ ∃ kind : Kind, hint = some kind.name

theorem exists_ofHint {hint : Option String} (valid : HintIsValid hint) :
    ∃ admitted, Kind.ofHint hint = .ok admitted := by
  rcases valid with rfl | rfl | ⟨kind, rfl⟩
  · exact ⟨none, rfl⟩
  · exact ⟨none, rfl⟩
  · cases kind <;> exact ⟨_, rfl⟩

/-- With valid names, a query is told as the grammar has it. -/
theorem told_of_valid {query : Query} {settings : Settings} {priority : Priority}
    {admitted : Option (List Kind)} (start : η)
    (known : Priority.ofNames settings.priority = .ok priority)
    (hinted : Kind.ofHint query.hint = .ok admitted) :
    let course := resolving host start query settings token
    Told host query admitted priority settings token settings.retryCount start
      course.2.exchanges course.1 := by
  obtain ⟨said, answer, told, course⟩ := start_rounds host query admitted priority settings token
    1 settings.retryCount { host := start }
  have same : resolving host start query settings token =
      (answer, Dialogue.extend { host := start } said) := by
    unfold resolving resolve
    rw [known]
    dsimp only
    rw [hinted]
    exact course
  rw [same]
  exact told

end SymbolJump.Resolution
