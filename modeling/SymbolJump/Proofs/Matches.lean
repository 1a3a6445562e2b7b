/-
# What a query may find

The last answer of the index decides a query. Its candidates of a wanted kind are kept; where some
of them match exactly, the choice is among these, and otherwise the user is shown all that were
kept. So what is found was in that answer, is of a wanted kind, and is inexact only where nothing
of a wanted kind matches exactly.

What is wanted, and what matches, is said here of hints and names themselves, without the tables
that a query is checked against.
-/
import SymbolJump.Proofs.Settling

namespace SymbolJump

open Act Dialogue

variable {η : Type}

namespace Kind

/-- Whether a hint wants a kind. Without a hint, or with an empty one, every kind is wanted; a
hint at functions wants methods and constructors too. -/
def isWanted (hint : Option String) (kind : Kind) : Bool :=
  match hint with
  | none | some "" => true
  | some name =>
      kind.name == name || (name == function.name && (kind == method || kind == constructor))

theorem code_injective {first second : Kind} (same : first.code = second.code) :
    first = second := by
  have there := ofCode?_code first
  rw [same, ofCode?_code] at there
  exact (Option.some.inj there).symm

theorem name_inj {first second : Kind} : first.name = second.name ↔ first = second := by
  refine ⟨fun same => ?_, congrArg name⟩
  have there := ofName?_name first
  rw [same, ofName?_name] at there
  exact (Option.some.inj there).symm

theorem name_ne_empty (kind : Kind) : kind.name ≠ "" := by
  cases kind <;> decide

theorem mem_admittedBy {wanted kind : Kind} :
    kind ∈ admittedBy wanted ↔
      kind = wanted ∨ (wanted = function ∧ (kind = method ∨ kind = constructor)) := by
  cases wanted with
  | function =>
      simp only [admittedBy, List.mem_cons, List.not_mem_nil, or_false, true_and]
      rw [← or_assoc, or_comm]
  | _ => simp [admittedBy]

theorem isWanted_name {wanted kind : Kind} :
    isWanted (some wanted.name) kind = true ↔
      kind = wanted ∨ (wanted = function ∧ (kind = method ∨ kind = constructor)) := by
  unfold isWanted
  split
  · next absent => nomatch absent
  · next empty => exact absurd (Option.some.inj empty) (name_ne_empty wanted)
  · next same =>
      rw [← Option.some.inj same]
      simp only [Bool.or_eq_true, Bool.and_eq_true, beq_iff_eq, name_inj]

theorem isAdmitted_some (kinds : List Kind) (kind : Kind) :
    isAdmitted (some kinds) kind.code = true ↔ kind ∈ kinds := by
  simp only [isAdmitted, List.any_eq_true, beq_iff_eq, Int.natCast_inj]
  constructor
  · rintro ⟨other, member, same⟩
    rwa [← code_injective same]
  · exact fun member => ⟨kind, member, rfl⟩

/-- The kinds that are admitted are the wanted ones. -/
theorem isAdmitted_eq_isWanted {hint : Option String} {admitted : Option (List Kind)}
    (hinted : ofHint hint = .ok admitted) (kind : Kind) :
    isAdmitted admitted kind.code = isWanted hint kind := by
  unfold ofHint at hinted
  split at hinted
  · rw [← Except.ok.inj hinted]
    rfl
  · rw [← Except.ok.inj hinted]
    rfl
  · next name given =>
      split at hinted
      · next wanted found =>
          have named : wanted.name = name := by
            simpa using List.find?_some found
          rw [← Except.ok.inj hinted, ← named, Bool.eq_iff_iff, isAdmitted_some,
            mem_admittedBy, isWanted_name]
      · nomatch hinted

end Kind

/-- The candidates of a wanted kind, in the order of the index. -/
def Query.wanted (query : Query) (symbols : List Candidate) : List Candidate :=
  symbols.filter fun candidate => candidate.kind.isWanted query.hint

/-- The candidates of a wanted kind whose plain name is that of the query. -/
def Query.exact (query : Query) (symbols : List Candidate) : List Candidate :=
  (query.wanted symbols).filter fun candidate => Name.plain candidate.name == query.name

/-- The picker answers, with nothing or with a candidate that it showed. -/
def Host.PicksShown (host : Host η) : Prop :=
  ∀ prompt candidates state, ∃ choice, ((host.pick prompt candidates).start state).1 = .ok choice ∧
    ∀ candidate, choice = some candidate → candidate ∈ candidates

/-- The last question of a dialogue, the symbols it is answered with, and what comes after. -/
structure AnswersLast (said : List (Exchange η)) (last : Exchange η) (symbols : List Candidate)
    (after : List (Exchange η)) : Prop where
  split : ∃ before, said = before ++ last :: after
  answers : ∃ text, last.Answers text symbols
  quiet : ∀ exchange ∈ after, exchange.isQuery = false

namespace AnswersLast

variable {said rest picks : List (Exchange η)} {last other pause : Exchange η}
  {symbols others : List Candidate} {after later : List (Exchange η)}

theorem append (here : AnswersLast rest last symbols after) (front : List (Exchange η)) :
    AnswersLast (front ++ rest) last symbols after := by
  obtain ⟨⟨before, rfl⟩, answers, quiet⟩ := here
  exact ⟨⟨front ++ before, (List.append_assoc _ _ _).symm⟩, answers, quiet⟩

/-- The last question is among the first exchanges, or is the last one of the others. -/
theorem of_append {front : List (Exchange η)}
    (here : AnswersLast (front ++ rest) last symbols after) :
    last ∈ front ∨ AnswersLast rest last symbols after := by
  obtain ⟨⟨before, same⟩, answers, quiet⟩ := here
  rcases List.append_eq_append_iff.mp same with ⟨gap, -, rest⟩ | ⟨gap, rfl, rest⟩
  · exact .inr ⟨⟨gap, rest⟩, answers, quiet⟩
  · cases gap with
    | nil => exact .inr ⟨⟨[], rest.symm⟩, answers, quiet⟩
    | cons exchange gap =>
        rw [(List.cons.inj rest).1]
        exact .inl (by simp)

theorem mem (here : AnswersLast said last symbols after) : last ∈ said := by
  obtain ⟨⟨before, rfl⟩, -, -⟩ := here
  simp

theorem of_cons (here : AnswersLast (pause :: rest) last symbols after)
    (quiet : pause.isQuery = false) : AnswersLast rest last symbols after := by
  have joined : AnswersLast ([pause] ++ rest) last symbols after := here
  rcases joined.of_append with member | later
  · obtain ⟨text, answered⟩ := here.answers
    rw [List.mem_singleton.mp member] at answered
    nomatch quiet.symm.trans answered.isQuery
  · exact later

/-- Only one question is the last. -/
theorem unique (first : AnswersLast said last symbols after)
    (second : AnswersLast said other others later) :
    last = other ∧ symbols = others ∧ after = later := by
  obtain ⟨⟨before, rfl⟩, ⟨text, answered⟩, quiet⟩ := first
  obtain ⟨⟨before', same⟩, ⟨text', answered'⟩, quiet'⟩ := second
  -- Of two questions the earlier one is not the last.
  rcases List.append_eq_append_iff.mp same with ⟨gap, -, same⟩ | ⟨gap, -, same⟩
  · cases gap with
    | nil =>
        obtain ⟨rfl, rfl⟩ := List.cons.inj same
        exact ⟨rfl, answered.unique answered', rfl⟩
    | cons exchange gap =>
        rw [(List.cons.inj same).2] at quiet
        nomatch (quiet other (by simp)).symm.trans answered'.isQuery
  · cases gap with
    | nil =>
        obtain ⟨rfl, rfl⟩ := List.cons.inj same
        exact ⟨rfl, answered.unique answered', rfl⟩
    | cons exchange gap =>
        rw [(List.cons.inj same).2] at quiet'
        nomatch (quiet' last (by simp)).symm.trans answered.isQuery

end AnswersLast

namespace Resolution

/-- How an answer that is not empty decides a query, and what is said for it: exact matches of a
wanted kind first, then all candidates of a wanted kind. -/
inductive Decides (host : Host η) (query : Query) (priority : Priority) (policy : ManyPolicy)
    (symbols : List Candidate) (state : η) : Except Fault Outcome → List (Exchange η) → Prop
  /-- The choice is among the exact matches, and a picker, if there is one, shows them all. -/
  | exact {course : Except Fault Outcome × Dialogue η} (some : query.exact symbols ≠ [])
      (chosen : course = (Choice.select (Dialogue.hostOf host) priority policy
        (query.exact symbols)).start { host := state })
      (shows : course.2.exchanges = [] ∨ ∃ picker shown, course.2.exchanges = [picker] ∧
        picker.call = .pick Choice.exactPrompt shown ∧ shown.Perm (query.exact symbols)) :
      Decides host query priority policy symbols state course.1 course.2.exchanges
  /-- One picker shows what is of a wanted kind. -/
  | similar {picker : Exchange η} {choice : Option Candidate} (none : query.exact symbols = [])
      (some : query.wanted symbols ≠ [])
      (shows : picker.call = .pick Choice.similarPrompt (query.wanted symbols))
      (replied : picker.reply = .choice choice) :
      Decides host query priority policy symbols state (.ok (Choice.outcomeOf choice)) [picker]
  | nothing (none : query.wanted symbols = []) :
      Decides host query priority policy symbols state (.ok .notFound) []

/-- The last answer decides a query, and what is found was in it: of a wanted kind, and an exact
match where one of a wanted kind is there. -/
structure Decided (host : Host η) (query : Query) (priority : Priority) (policy : ManyPolicy)
    (said : List (Exchange η)) (answer : Except Fault Outcome) : Prop where
  decides : ∀ last symbols after, AnswersLast said last symbols after → symbols ≠ [] →
    Decides host query priority policy symbols last.after answer after
  found : ∀ candidate, answer = .ok (.found candidate) →
    ∃ last symbols after, AnswersLast said last symbols after ∧
      candidate ∈ query.wanted symbols ∧
      (Name.plain candidate.name ≠ query.name → query.exact symbols = [])

section Settling

variable {host : Host η} {query : Query} {admitted : Option (List Kind)} {priority : Priority}
  {settings : Settings} {symbols : List Candidate}

theorem inKind_eq_wanted (hinted : Kind.ofHint query.hint = .ok admitted) :
    inKind admitted symbols = query.wanted symbols :=
  List.filter_congr fun candidate _ => Kind.isAdmitted_eq_isWanted hinted candidate.kind

theorem exactIn_eq_exact (hinted : Kind.ofHint query.hint = .ok admitted) :
    exactIn query admitted symbols = query.exact symbols := by
  unfold exactIn Query.exact
  rw [inKind_eq_wanted hinted]
  rfl

/-- A picker that answers ends with its choice. -/
theorem start_pick_of_shown (picks : host.PicksShown) (prompt : String)
    (candidates : List Candidate) (dialogue : Dialogue η) :
    ∃ choice, (Choice.pick (Dialogue.hostOf host) prompt candidates).start dialogue =
        (.ok (Choice.outcomeOf choice),
          dialogue.extend [Choice.picking host prompt candidates dialogue.host]) ∧
      (Choice.picking host prompt candidates dialogue.host).reply = .choice choice ∧
      ∀ candidate, Choice.outcomeOf choice = .found candidate → candidate ∈ candidates := by
  obtain ⟨choice, answered, shown⟩ := picks prompt candidates dialogue.host
  refine ⟨choice, ?_, ?_, fun candidate found => ?_⟩
  · rw [Choice.start_pick, answered]
    rfl
  · rw [Choice.picking, exchangeOf, answered]
    rfl
  · cases choice with
    | none => cases found
    | some chosen => exact shown candidate (congrArg some (Outcome.found.inj found))

/-- An answer settles a query as it decides it, and whatever is found is of a wanted kind, and an
exact match where there is one. -/
theorem decides_settling (picks : host.PicksShown)
    (hinted : Kind.ofHint query.hint = .ok admitted) (state : η) (symbols : List Candidate) :
    let course := settling host query admitted priority settings state symbols
    Decides host query priority settings.many symbols state course.1 course.2.exchanges ∧
      ∃ outcome, course.1 = .ok outcome ∧ ∀ candidate, outcome = .found candidate →
        candidate ∈ query.wanted symbols ∧
          (Name.plain candidate.name ≠ query.name → query.exact symbols = []) := by
  dsimp only
  by_cases some : query.exact symbols = []
  case neg =>
    have exact : exactIn query admitted symbols ≠ [] := by
      rwa [exactIn_eq_exact hinted]
    rw [settling_of_exact host query admitted priority settings state exact,
      exactIn_eq_exact hinted]
    have found (candidate : Candidate) (member : candidate ∈ query.exact symbols) :
        candidate ∈ query.wanted symbols ∧
          (Name.plain candidate.name ≠ query.name → query.exact symbols = []) := by
      obtain ⟨wanted, same⟩ := List.mem_filter.mp member
      exact ⟨wanted, fun differ => absurd (beq_iff_eq.mp same) differ⟩
    rcases Choice.start_select host priority settings.many some { host := state }
      with ⟨chosen, member, course⟩ | ⟨shown, perm, course⟩
    · refine ⟨.exact some rfl (.inl ?_), .found chosen, ?_, fun candidate same => ?_⟩
      · rw [course]
      · rw [course]
      · rw [← Outcome.found.inj same]
        exact found chosen member
    · obtain ⟨choice, picked, -, chosen⟩ := start_pick_of_shown picks Choice.exactPrompt shown
        { host := state }
      rw [picked] at course
      refine ⟨.exact some rfl (.inr ⟨Choice.picking host Choice.exactPrompt shown state, shown,
        ?_, rfl, perm⟩), Choice.outcomeOf choice, ?_, fun candidate same => ?_⟩
      · rw [course]
        rfl
      · rw [course]
      · exact found candidate (perm.subset (chosen candidate same))
  by_cases kept : query.wanted symbols = []
  · have none : inKind admitted symbols = [] := by
      rwa [inKind_eq_wanted hinted]
    rw [settling_of_none host query admitted priority settings state none]
    exact ⟨.nothing kept, .notFound, rfl, nofun⟩
  · have none : exactIn query admitted symbols = [] := by
      rwa [exactIn_eq_exact hinted]
    have similar : inKind admitted symbols ≠ [] := by
      rwa [inKind_eq_wanted hinted]
    rw [settling_of_similar host query admitted priority settings state none similar,
      inKind_eq_wanted hinted]
    obtain ⟨choice, picked, replied, chosen⟩ := start_pick_of_shown picks Choice.similarPrompt
      (query.wanted symbols) { host := state }
    rw [picked]
    refine ⟨.similar some kept rfl replied, _, rfl, fun candidate same => ?_⟩
    exact ⟨chosen candidate same, fun _ => some⟩

end Settling

section Told

variable {host : Host η} {query : Query} {admitted : Option (List Kind)} {priority : Priority}
  {settings : Settings} {token : Option (η → Bool)}

/-- A question of a round gets nothing, or gets what the round ends with. -/
theorem answers_of_asked {name text : String} {asking : List (Exchange η)}
    {answer : Except Fault (List Candidate)} (asked : Asked host name asking answer)
    {exchange : Exchange η} (member : exchange ∈ asking) {symbols : List Candidate}
    (answered : exchange.Answers text symbols) : symbols = [] ∨ answer = .ok symbols := by
  have failed (state : η) (text : String) (fault : Fault)
      (failed : ((host.query text).start state).1 = .error fault)
      (same : exchange = exchangeOf (.query text) .symbols (host.query text) state) : False := by
    obtain ⟨-, answer, replied, -⟩ := answered
    rw [same, exchangeOf, failed] at replied
    cases replied
  cases asked with
  | first answers some =>
      rw [List.mem_singleton.mp member] at answered
      exact .inr (congrArg _ (answers.unique answered))
  | second unanswered answers =>
      rcases List.mem_cons.mp member with rfl | member
      · exact .inl (answered.unique unanswered)
      · rw [List.mem_singleton.mp member] at answered
        exact .inr (congrArg _ (answers.unique answered))
  | firstFailed failure =>
      exact (failed _ _ _ failure (List.mem_singleton.mp member)).elim
  | secondFailed unanswered failure =>
      rcases List.mem_cons.mp member with rfl | member
      · exact .inl (answered.unique unanswered)
      · exact (failed _ _ _ failure (List.mem_singleton.mp member)).elim

/-- The last question of a round that ends with symbols is answered with them. -/
theorem answersLast_of_asked {name : String} {asking picks : List (Exchange η)}
    {symbols : List Candidate} (asked : Asked host name asking (.ok symbols)) (state : η)
    (quiet : ∀ exchange ∈ picks, exchange.isQuery = false) :
    ∃ last, AnswersLast (asking ++ picks) last symbols picks ∧
      last.after = stateAfter state asking := by
  cases asked with
  | @first only symbols answered some => exact ⟨only, ⟨⟨[], rfl⟩, ⟨_, answered⟩, quiet⟩, rfl⟩
  | @second empty other symbols unanswered answered =>
      exact ⟨other, ⟨⟨[empty], rfl⟩, ⟨_, answered⟩, quiet⟩, rfl⟩

/-- No question of an empty or failed round is answered with symbols. -/
theorem eq_nil_of_asked {name : String} {asking : List (Exchange η)}
    {answer : Except Fault (List Candidate)} (asked : Asked host name asking answer)
    (vain : ∀ symbols, answer = .ok symbols → symbols = []) {last : Exchange η}
    (member : last ∈ asking) {symbols : List Candidate}
    (answers : ∃ text, last.Answers text symbols) : symbols = [] := by
  obtain ⟨text, answered⟩ := answers
  exact (answers_of_asked asked member answered).elim id (vain symbols)

theorem eq_nil_of_empty {name : String} {asking : List (Exchange η)}
    (asked : Asked host name asking (.ok [])) {last : Exchange η} (member : last ∈ asking)
    {symbols : List Candidate} (answers : ∃ text, last.Answers text symbols) : symbols = [] :=
  eq_nil_of_asked asked (fun _ same => (Except.ok.inj same).symm) member answers

/-- Without symbols in the last answer, nothing is decided and nothing found. -/
theorem decided_of_vain {said : List (Exchange η)} {answer : Except Fault Outcome}
    (vain : ∀ last symbols after, AnswersLast said last symbols after → symbols = [])
    (lost : ∀ candidate, answer ≠ .ok (.found candidate)) :
    Decided host query priority settings.many said answer where
  decides last symbols after here some := absurd (vain last symbols after here) some
  found candidate found := absurd found (lost candidate)

/-- Whatever is said of a query, its last answer decides it. -/
theorem decided_of_told (picks : host.PicksShown)
    (hinted : Kind.ofHint query.hint = .ok admitted) {left : Nat} {state : η}
    {said : List (Exchange η)} {answer : Except Fault Outcome}
    (told : Told host query admitted priority settings token left state said answer) :
    Decided host query priority settings.many said answer := by
  induction told with
  | spent => exact decided_of_vain (fun _ _ _ here => nomatch here.mem) nofun
  | cancelled now => exact decided_of_vain (fun _ _ _ here => nomatch here.mem) nofun
  | unanswered _ asked =>
      exact decided_of_vain (fun _ _ _ here => eq_nil_of_asked asked nofun here.mem here.answers)
        nofun
  | @settled left state asking symbols course _ asked some settles =>
      have picked := atMostOnePick_settling host query admitted priority settings
        (stateAfter state asking) symbols
      obtain ⟨decides, outcome, ended, found⟩ := decides_settling picks hinted
        (stateAfter state asking) symbols
      rw [settles] at picked decides ended
      obtain ⟨only, here, left⟩ := answersLast_of_asked asked state picked.isQuery_eq_false
      rw [ended] at decides ⊢
      constructor
      · intro last others after there _
        obtain ⟨rfl, rfl, rfl⟩ := here.unique there
        rw [left]
        exact decides
      · intro candidate same
        exact ⟨only, symbols, _, here, found candidate (Except.ok.inj same)⟩
  | last _ asked =>
      exact decided_of_vain
        (fun _ _ _ here => eq_nil_of_empty asked here.mem here.answers) nofun
  | endless _ asked long =>
      exact decided_of_vain
        (fun _ _ _ here => eq_nil_of_empty asked here.mem here.answers) nofun
  | unwaited _ asked failed =>
      refine decided_of_vain (fun last symbols after here => ?_) nofun
      rcases here.of_append with member | later
      · exact eq_nil_of_empty asked member here.answers
      · nomatch (later.of_cons rfl).mem
  | again _ asked fits told ih =>
      constructor
      · intro last symbols after here some
        rcases here.of_append with member | later
        · exact absurd (eq_nil_of_empty asked member here.answers) some
        · exact ih.decides last symbols after (later.of_cons rfl) some
      · intro candidate same
        obtain ⟨last, symbols, after, here, found⟩ := ih.found candidate same
        exact ⟨last, symbols, after, (here.append [_]).append _, found⟩

end Told

/-- With valid names and a picker that answers, with nothing or with something that it showed, the
last answer of the index decides a query, and what is found was in that answer. -/
theorem last_answer_decides {host : Host η} {start : η} {query : Query} {settings : Settings}
    {token : Option (η → Bool)} (picks : host.PicksShown)
    (knownPriority : ∀ name ∈ settings.priority, ∃ kind : Kind, kind.name = name)
    (knownHint : HintIsValid query.hint) :
    ∃ priority, Priority.ofNames settings.priority = .ok priority ∧
      Decided host query priority settings.many
        (resolving host start query settings token).2.exchanges
        (resolving host start query settings token).1 := by
  obtain ⟨priority, known⟩ := exists_ofNames knownPriority
  obtain ⟨admitted, hinted⟩ := exists_ofHint knownHint
  have told := told_of_valid host token start known hinted
  exact ⟨priority, known, decided_of_told picks hinted told⟩

/-- The last answer decides where the index has a match of the wanted kind and one of another
kind. -/
theorem last_answer_decides_of_two_kinds :
    let start : Script :=
      { answers := [some [⟨"T.g()", .method, { path := "/b/g" }, .null⟩,
          ⟨"g", .classType, { path := "/b/G" }, .null⟩]] }
    let query : Query := ⟨"g", some "Function"⟩
    ∃ priority, Priority.ofNames Script.settings.priority = .ok priority ∧
      Decided Script.host query priority Script.settings.many
        (resolving Script.host start query Script.settings none).2.exchanges
        (resolving Script.host start query Script.settings none).1 := by
  intro start query
  have picks : Script.host.PicksShown := fun prompt candidates state =>
    ⟨candidates.head?, rfl, fun candidate => List.mem_of_mem_head?⟩
  exact last_answer_decides picks Script.names (.inr (.inr ⟨.function, rfl⟩))

end Resolution

end SymbolJump
