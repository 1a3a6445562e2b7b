/-
# How a query is settled

An answer of the index settles a query in one of three ways: by a choice among exact matches, by
a picker over what matches roughly, or without a match. Choosing shows one picker or none.
-/
import SymbolJump.Proofs.Rounds

namespace SymbolJump

open Act Dialogue

variable {η : Type} (host : Host η)

namespace Choice

/-- What comes of a picker. -/
def outcomeOf : Option Candidate → Outcome
  | some candidate => .found candidate
  | none => .cancelled

/-- The exchange that a picker is. -/
def picking (prompt : String) (candidates : List Candidate) (state : η) : Exchange η :=
  exchangeOf (.pick prompt candidates) .choice (host.pick prompt candidates) state

theorem start_pick (prompt : String) (candidates : List Candidate) (dialogue : Dialogue η) :
    (pick (Dialogue.hostOf host) prompt candidates).start dialogue =
      (((host.pick prompt candidates).start dialogue.host).1.map outcomeOf,
        dialogue.extend [picking host prompt candidates dialogue.host]) := by
  rw [pick, start_bind, Dialogue.start_pick]
  rcases ((host.pick prompt candidates).start dialogue.host).1 with fault | _ | candidate
  · rfl
  · rfl
  · rfl

theorem mem_of_firstUnderRoots? {candidates : List Candidate} {roots : List String}
    {chosen : Candidate} (first : firstUnderRoots? candidates roots = some chosen) :
    chosen ∈ candidates := by
  obtain ⟨root, -, found⟩ := List.exists_of_findSome?_eq_some first
  exact List.mem_of_find?_eq_some found

theorem sortByPriority_perm (priority : Priority) (candidates : List Candidate) :
    (sortByPriority priority candidates).Perm candidates :=
  List.mergeSort_perm candidates _

/-- Choosing among exact matches takes one of them at once, or shows them all in one picker. -/
theorem start_select (priority : Priority) (policy : ManyPolicy) {candidates : List Candidate}
    (some : candidates ≠ []) (dialogue : Dialogue η) :
    (∃ chosen ∈ candidates, (select (Dialogue.hostOf host) priority policy candidates).start
        dialogue = (.ok (.found chosen), dialogue)) ∨
      ∃ shown, shown.Perm candidates ∧
        (select (Dialogue.hostOf host) priority policy candidates).start dialogue =
          (pick (Dialogue.hostOf host) exactPrompt shown).start dialogue := by
  have perm := sortByPriority_perm priority candidates
  unfold select
  rcases sorted : sortByPriority priority candidates with _ | ⟨first, _ | ⟨next, others⟩⟩
  · rw [sorted] at perm
    exact absurd perm.nil_eq.symm some
  · rw [sorted] at perm
    exact .inl ⟨first, perm.subset List.mem_cons_self, rfl⟩
  rw [sorted] at perm
  cases policy with
  | first => exact .inl ⟨first, perm.subset List.mem_cons_self, rfl⟩
  | pick => exact .inr ⟨_, perm, rfl⟩
  | byRoot =>
      refine .inl ⟨_, perm.subset ?_, start_bind_of_ok (start_get dialogue) _⟩
      rcases chosen : firstUnderRoots? (first :: next :: others) _ with _ | candidate
      · exact List.mem_cons_self
      · exact mem_of_firstUnderRoots? chosen

end Choice

namespace Resolution

variable (query : Query) (admitted : Option (List Kind)) (priority : Priority)
  (settings : Settings)

/-- The candidates of an admitted kind. -/
def inKind (symbols : List Candidate) : List Candidate :=
  symbols.filter (Candidate.isAdmitted admitted)

/-- The candidates of an admitted kind that match exactly. -/
def exactIn (symbols : List Candidate) : List Candidate :=
  (inKind admitted symbols).filter (·.isExactFor query.name)

variable {symbols : List Candidate} (state : η)

/-- Exact matches of an admitted kind are chosen among, whatever else was answered. -/
theorem settling_of_exact (exact : exactIn query admitted symbols ≠ []) :
    settling host query admitted priority settings state symbols =
      (Choice.select (Dialogue.hostOf host) priority settings.many
        (exactIn query admitted symbols)).start { host := state } := by
  have given : (!(exactIn query admitted symbols).isEmpty) = true := by
    simpa using exact
  unfold settling settle
  exact congrArg (Act.start · _) (if_pos given)

/-- Without an exact match, all candidates of an admitted kind are shown. -/
theorem settling_of_similar (none : exactIn query admitted symbols = [])
    (similar : inKind admitted symbols ≠ []) :
    settling host query admitted priority settings state symbols =
      (Choice.pick (Dialogue.hostOf host) Choice.similarPrompt
        (inKind admitted symbols)).start { host := state } := by
  have missing : ¬ (!(exactIn query admitted symbols).isEmpty) = true := by
    simpa using none
  have given : (!(inKind admitted symbols).isEmpty) = true := by
    simpa using similar
  unfold settling settle
  dsimp only
  rw [← inKind, ← exactIn, if_neg missing, if_pos given,
    start_bind_of_ok (Dialogue.start_debug host _ _)]
  rfl

/-- Without a candidate of an admitted kind, nothing is found, and no picker is shown. -/
theorem settling_of_none (none : inKind admitted symbols = []) :
    settling host query admitted priority settings state symbols =
      (.ok .notFound, { host := state }) := by
  have missing : ¬ (!(exactIn query admitted symbols).isEmpty) = true := by
    simp [exactIn, none]
  have nothing : ¬ (!(inKind admitted symbols).isEmpty) = true := by
    simpa using none
  unfold settling settle
  dsimp only
  rw [← inKind, ← exactIn, if_neg missing, if_neg nothing,
    start_bind_of_ok (Dialogue.start_debug host _ _)]
  rfl

/-- At most one exchange, with the picker. -/
def AtMostOnePick (exchanges : List (Exchange η)) : Prop :=
  exchanges.length ≤ 1 ∧
    ∀ exchange ∈ exchanges, ∃ prompt candidates, exchange.call = .pick prompt candidates

theorem atMostOnePick_nil : AtMostOnePick ([] : List (Exchange η)) :=
  ⟨Nat.zero_le 1, fun _ member => nomatch member⟩

theorem atMostOnePick_picking (prompt : String) (candidates : List Candidate) :
    AtMostOnePick [Choice.picking host prompt candidates state] := by
  refine ⟨Nat.le_refl 1, fun exchange member => ⟨prompt, candidates, ?_⟩⟩
  rw [List.mem_singleton.mp member]
  rfl

/-- A query is settled without a picker, or as a picker is answered. -/
theorem settling_cases (symbols : List Candidate) :
    (∃ outcome, settling host query admitted priority settings state symbols =
        (.ok outcome, { host := state })) ∨
      ∃ prompt candidates, settling host query admitted priority settings state symbols =
        (Choice.pick (Dialogue.hostOf host) prompt candidates).start { host := state } := by
  by_cases exact : exactIn query admitted symbols = []
  case neg =>
    rw [settling_of_exact host query admitted priority settings state exact]
    rcases Choice.start_select host priority settings.many exact { host := state }
      with ⟨chosen, -, course⟩ | ⟨shown, -, course⟩
    · exact .inl ⟨.found chosen, course⟩
    · exact .inr ⟨Choice.exactPrompt, shown, course⟩
  by_cases similar : inKind admitted symbols = []
  · exact .inl ⟨.notFound,
      settling_of_none host query admitted priority settings state similar⟩
  · exact .inr ⟨Choice.similarPrompt, inKind admitted symbols,
      settling_of_similar host query admitted priority settings state exact similar⟩

/-- Settling a query shows at most one picker and does nothing else. -/
theorem atMostOnePick_settling (symbols : List Candidate) :
    AtMostOnePick
      (settling host query admitted priority settings state symbols).2.exchanges := by
  rcases settling_cases host query admitted priority settings state symbols
    with ⟨outcome, course⟩ | ⟨prompt, candidates, course⟩
  · rw [course]
    exact atMostOnePick_nil
  · rw [course, Choice.start_pick]
    exact atMostOnePick_picking _ _ _ _

theorem AtMostOnePick.isQuery_eq_false {exchanges : List (Exchange η)}
    (picked : AtMostOnePick exchanges) (exchange : Exchange η) (member : exchange ∈ exchanges) :
    exchange.isQuery = false := by
  obtain ⟨prompt, candidates, call⟩ := picked.2 exchange member
  rw [Exchange.isQuery, call]

end Resolution

end SymbolJump
