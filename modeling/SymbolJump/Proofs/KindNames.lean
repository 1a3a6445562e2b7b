/-
# Names of kinds come first

The names of kinds that a query depends on are all looked up before its first round: those of the
settings in their order, then that of its hint. The first one outside the vocabulary ends the
query with its error, before anything is said and whether or not the query was cancelled.

Once they are known, no name fails any more. A search that looks the hint up again for every
candidate of every round is the same as one that looks it up once, and each fault that ends the
rounds is that of their last call, or a wait too long to be made.
-/
import SymbolJump.Proofs.Settling
import SymbolJump.Proofs.Failures

namespace SymbolJump

open Act Dialogue

variable {η σ : Type}

/-! ## The vocabulary -/

namespace Kind

/-- A name in the vocabulary. -/
def IsName (name : String) : Prop :=
  ∃ kind : Kind, kind.name = name

/-- The first name of a list that is outside the vocabulary. -/
def FirstUnknown (names : List String) (name : String) : Prop :=
  ∃ before later, names = before ++ name :: later ∧ (∀ other ∈ before, IsName other) ∧
    ¬ IsName name

/-- A hint that is not empty and outside the vocabulary. -/
def HintUnknown (hint : Option String) (name : String) : Prop :=
  hint = some name ∧ name ≠ "" ∧ ¬ IsName name

theorem name_of_ofName? {name : String} {kind : Kind} (found : ofName? name = some kind) :
    kind.name = name := by
  simpa using List.find?_some found

theorem ofName?_eq_none_iff {name : String} : ofName? name = none ↔ ¬ IsName name := by
  constructor
  · rintro missing ⟨kind, rfl⟩
    rw [ofName?_name] at missing
    nomatch missing
  · intro unknown
    rcases found : ofName? name with _ | kind
    · rfl
    · exact absurd ⟨kind, name_of_ofName? found⟩ unknown

instance (name : String) : Decidable (IsName name) :=
  decidable_of_iff (ofName? name ≠ none) (by rw [Ne, ofName?_eq_none_iff, Classical.not_not])

theorem FirstUnknown.cons {names : List String} {name other : String} (known : IsName other)
    (first : FirstUnknown names name) : FirstUnknown (other :: names) name := by
  obtain ⟨before, later, rfl, others, unknown⟩ := first
  exact ⟨other :: before, later, rfl, List.forall_mem_cons.mpr ⟨known, others⟩, unknown⟩

/-- A list without a first unknown name has none at all. -/
theorem forall_isName_of_none_unknown {names : List String}
    (none : ∀ name, ¬ FirstUnknown names name) : ∀ name ∈ names, IsName name := by
  induction names with
  | nil => exact List.forall_mem_nil _
  | cons name rest ih =>
      by_cases known : IsName name
      · exact List.forall_mem_cons.mpr
          ⟨known, ih fun other first => none other (first.cons known)⟩
      · exact absurd ⟨[], rest, rfl, List.forall_mem_nil _, known⟩ (none name)

theorem not_firstUnknown_of_known {names : List String} (known : ∀ name ∈ names, IsName name)
    (name : String) : ¬ FirstUnknown names name := by
  rintro ⟨before, later, rfl, -, unknown⟩
  exact unknown (known name (by simp))

/-- A hint is unknown, or valid. -/
theorem hintIsValid_of_none_unknown {hint : Option String}
    (none : ∀ name, ¬ HintUnknown hint name) : Resolution.HintIsValid hint := by
  rcases hint with _ | name
  · exact .inl rfl
  by_cases empty : name = ""
  · exact .inr (.inl (congrArg some empty))
  by_cases known : IsName name
  · obtain ⟨kind, rfl⟩ := known
    exact .inr (.inr ⟨kind, rfl⟩)
  · exact absurd ⟨rfl, empty, known⟩ (none name)

theorem ofHint_of_unknown {hint : Option String} {name : String}
    (unknown : HintUnknown hint name) : ofHint hint = .error (.unknownHint name) := by
  obtain ⟨rfl, some, unknown⟩ := unknown
  unfold ofHint
  split
  · next given => nomatch given
  · next given => exact absurd (Option.some.inj given) some
  · next given =>
      obtain rfl := Option.some.inj given
      rw [ofName?_eq_none_iff.mpr unknown]

/-- Whether a candidate passes a hint, which is looked up for this candidate. -/
def admits (hint : Option String) (symbol : Candidate) : Except RequestError Bool := do
  return symbol.isAdmitted (← ofHint hint)

end Kind

open Kind

/-- The first unknown name of a list is the one it is refused for. -/
theorem Priority.ofNames_of_firstUnknown {names : List String} {name : String}
    (first : FirstUnknown names name) :
    ofNames names = .error (.unknownPriorityKind name) := by
  obtain ⟨before, later, rfl, known, unknown⟩ := first
  obtain ⟨priority, described⟩ := Resolution.exists_ofNames known
  unfold ofNames at described ⊢
  rw [List.foldlM_append, described]
  dsimp only [bind, Except.bind]
  rw [List.foldlM_cons, ofName?_eq_none_iff.mpr unknown]
  rfl

/-! ## One lookup for all candidates -/

theorem filterAuxM_eq_ok {α ε : Type} {test : α → Except ε Bool} {keeps : α → Bool}
    (answers : ∀ item, test item = .ok (keeps item)) (items kept : List α) :
    List.filterAuxM test items kept = .ok ((items.filter keeps).reverse ++ kept) := by
  induction items generalizing kept with
  | nil => rfl
  | cons item rest ih =>
      rw [List.filterAuxM, answers]
      change List.filterAuxM test rest _ = _
      rw [ih, List.filter_cons]
      rcases keeps item
      · rfl
      · simp

theorem filterM_eq_ok {α ε : Type} {test : α → Except ε Bool} {keeps : α → Bool}
    (answers : ∀ item, test item = .ok (keeps item)) (items : List α) :
    items.filterM test = .ok (items.filter keeps) := by
  rw [List.filterM, filterAuxM_eq_ok answers, List.append_nil]
  exact congrArg Except.ok (List.reverse_reverse _)

namespace Resolution

/-- With a hint that is known, looking it up for each candidate keeps those of an admitted
kind. -/
theorem filterM_admits {hint : Option String} {admitted : Option (List Kind)}
    (hinted : ofHint hint = .ok admitted) (symbols : List Candidate) :
    symbols.filterM (admits hint) = .ok (inKind admitted symbols) := by
  apply filterM_eq_ok
  intro symbol
  rw [admits, hinted]
  rfl

section Anew

variable (host : Host σ) (query : Query) (priority : Priority) (settings : Settings)
  (token : Option (σ → Bool))

/-- Settle a query by an answer that is not empty, where the hint is looked up for each
candidate. -/
def settleAnew (policy : ManyPolicy) (symbols : List Candidate) : Act σ Outcome :=
  match symbols.filterM (admits query.hint) with
  | .error error => throw (.request error)
  | .ok inKind => settle host query none priority policy inKind

/-- One round in which the hint is looked up for each candidate. -/
def roundAnew (policy : ManyPolicy) : Act σ (Option Outcome) := do
  let symbols ← findSymbols host query.name
  if symbols.isEmpty then return none
  else
    host.debug ("raw results: " ++ (summary symbols).compact)
    return some (← settleAnew host query priority policy symbols)

/-- Rounds in each of which the hint is looked up for each candidate. -/
def roundsAnew (number : Nat) : (left : Nat) → Act σ Outcome
  | 0 => return .notFound
  | left + 1 => do
      let progress := toString number ++ "/" ++ toString settings.retryCount
      if (token.map (· (← get))).getD false then
        host.debug ("cancelled before attempt " ++ progress)
        return .cancelled
      else
        host.debug ("attempt " ++ progress)
        let outcome ←
          tryCatch (roundAnew host query priority settings.many) fun fault =>
            throw (.request (asRequestError fault))
        match outcome with
        | some outcome => return outcome
        | none =>
            if left ≠ 0 then pause host settings
            roundsAnew (number + 1) left

variable {query} {admitted : Option (List Kind)}

theorem settle_eq_settleAnew (hinted : ofHint query.hint = .ok admitted) (policy : ManyPolicy)
    (symbols : List Candidate) :
    settle host query admitted priority policy symbols =
      settleAnew host query priority policy symbols := by
  have all : (inKind admitted symbols).filter (Candidate.isAdmitted none) =
      inKind admitted symbols := List.filter_eq_self.mpr fun _ _ => rfl
  rw [settleAnew, filterM_admits hinted]
  dsimp only
  rw [settle, settle, all]
  rfl

theorem round_eq_roundAnew (hinted : ofHint query.hint = .ok admitted) (policy : ManyPolicy) :
    round host query admitted priority policy = roundAnew host query priority policy := by
  unfold round roundAnew
  simp only [settle_eq_settleAnew host priority hinted]

/-- Looking a known hint up for each candidate of each round changes nothing. -/
theorem rounds_eq_roundsAnew (hinted : ofHint query.hint = .ok admitted) (number left : Nat) :
    rounds host query admitted priority settings token number left =
      roundsAnew host query priority settings token number left := by
  induction left generalizing number with
  | zero => rfl
  | succ left ih =>
      unfold rounds roundsAnew
      rewrite [round_eq_roundAnew host priority hinted, ih]
      rfl

end Anew

/-! ## What ends the rounds with a fault -/

/-- A fault that comes of the host: that of the last call that was made, as it surfaces, or a wait
that is too long to be made. -/
inductive ComesOfHost (settings : Settings) (said : List (Exchange η)) : Fault → Prop
  | call (before : List (Exchange η)) {last : Exchange η} {raw : Fault}
      (ends : said = before ++ [last]) (failed : last.reply = .failed raw) :
      ComesOfHost settings said (last.call.surface raw)
  | wait (long : tooLong ≤ settings.retryInterval) : ComesOfHost settings said (.overflow .wait)

theorem ComesOfHost.append {settings : Settings} {said : List (Exchange η)} {fault : Fault}
    (comes : ComesOfHost settings said fault) (earlier : List (Exchange η)) :
    ComesOfHost settings (earlier ++ said) fault := by
  cases comes with
  | call before ends failed =>
      rw [ends, ← List.append_assoc]
      exact .call _ rfl failed
  | wait long => exact .wait long

theorem reply_exchangeOf_of_error {α : Type} (call : Call) (reply : α → Reply) {act : Act η α}
    {state : η} {fault : Fault} (failed : (act.start state).1 = .error fault) :
    (exchangeOf call reply act state).reply = .failed fault := by
  rw [exchangeOf, failed]
  rfl

variable {host : Host η} {query : Query} {admitted : Option (List Kind)} {priority : Priority}
  {settings : Settings} {token : Option (η → Bool)}

/-- Questions that end with a fault end with the question that failed. -/
theorem Asked.comesOfHost {name : String} {asking : List (Exchange η)} {fault : Fault}
    (asked : Asked host name asking (.error fault)) :
    ComesOfHost settings asking (.request (asRequestError fault)) := by
  cases asked with
  | firstFailed failed => exact .call [] rfl (reply_exchangeOf_of_error _ _ failed)
  | secondFailed unanswered failed => exact .call [_] rfl (reply_exchangeOf_of_error _ _ failed)

/-- A picker ends with a fault when it fails. -/
theorem comesOfHost_pick {prompt : String} {shown : List Candidate} {state : η} {fault : Fault}
    (failed : ((Choice.pick (Dialogue.hostOf host) prompt shown).start { host := state }).1 =
      .error fault) :
    ComesOfHost settings
      ((Choice.pick (Dialogue.hostOf host) prompt shown).start { host := state }).2.exchanges
      (.request (asRequestError fault)) := by
  rw [Choice.start_pick] at failed ⊢
  rcases picked : ((host.pick prompt shown).start state).1 with raw | choice
  · dsimp only at failed
    rw [picked] at failed
    obtain rfl := Except.error.inj failed
    exact .call [] rfl (reply_exchangeOf_of_error _ _ picked)
  · dsimp only at failed
    rw [picked] at failed
    nomatch failed

/-- Settling a query ends with a fault only when a picker is shown and fails. -/
theorem comesOfHost_settling {state : η} {symbols : List Candidate} {fault : Fault}
    (failed : (settling host query admitted priority settings state symbols).1 = .error fault) :
    ComesOfHost settings
      (settling host query admitted priority settings state symbols).2.exchanges
      (.request (asRequestError fault)) := by
  by_cases exact : exactIn query admitted symbols = []
  case neg =>
    rw [settling_of_exact host query admitted priority settings state exact] at failed ⊢
    rcases Choice.start_select host priority settings.many exact { host := state }
      with ⟨chosen, -, taken⟩ | ⟨shown, -, taken⟩
    · rw [taken] at failed
      nomatch failed
    · rw [taken] at failed ⊢
      exact comesOfHost_pick failed
  by_cases similar : inKind admitted symbols = []
  · rw [settling_of_none host query admitted priority settings state similar] at failed
    nomatch failed
  · rw [settling_of_similar host query admitted priority settings state exact similar] at failed ⊢
    exact comesOfHost_pick failed

/-- Each fault that ends the rounds comes of the host. -/
theorem comesOfHost_of_told {left : Nat} {state : η} {said : List (Exchange η)}
    {answer : Except Fault Outcome} {fault : Fault}
    (told : Told host query admitted priority settings token left state said answer)
    (failed : answer = .error fault) : ComesOfHost settings said fault := by
  induction told with
  | spent => nomatch failed
  | cancelled _ => nomatch failed
  | last _ _ => nomatch failed
  | unanswered _ asked =>
      obtain rfl := Except.error.inj failed
      exact asked.comesOfHost
  | @settled left state asking symbols course _ asked some settles =>
      subst settles
      rcases ended : (settling host query admitted priority settings _ symbols).1 with raw | outcome
      · rw [ended] at failed
        obtain rfl := Except.error.inj failed
        exact (comesOfHost_settling ended).append asking
      · rw [ended] at failed
        nomatch failed
  | endless _ _ long =>
      obtain rfl := Except.error.inj failed
      exact .wait long
  | unwaited _ asked broken =>
      obtain rfl := Except.error.inj failed
      exact .call _ rfl (reply_exchangeOf_of_error _ _ broken)
  | @again left state asking rest answer _ asked fits told ih =>
      rw [List.append_cons]
      exact (ih failed).append _

/-! ## The law -/

/-- A query that ends before anything is done: no operation of the host is made, the token is not
looked at, and the answer is an error. -/
structure EndsAtOnce (host : Host η) (query : Query) (settings : Settings)
    (token : Option (η → Bool)) (error : RequestError) : Prop where
  throws : resolve host query settings token = throw (.request error)
  unsaid : ∀ start, resolving host start query settings token =
    (.error (.request error), { host := start })

theorem endsAtOnce_of_namesUnknown {error : RequestError}
    (unknown : NamesUnknown settings query error) :
    EndsAtOnce host query settings token error where
  throws := resolve_of_namesUnknown host token unknown
  unsaid start := by
    rw [resolving, resolve_of_namesUnknown _ _ unknown]
    rfl

/-- A query whose rounds no name can fail: the hint is known in each lookup, and a fault comes of
the host. -/
structure IsSafeFromNames (host : Host η) (query : Query) (settings : Settings)
    (token : Option (η → Bool)) (priority : Priority) (admitted : Option (List Kind)) :
    Prop where
  described : Priority.ofNames settings.priority = .ok priority
  lookups : ∀ symbols : List Candidate,
    symbols.filterM (admits query.hint) = .ok (inKind admitted symbols)
  rounds : resolve host query settings token =
    rounds host query admitted priority settings token 1 settings.retryCount
  anew : resolve host query settings token =
    roundsAnew host query priority settings token 1 settings.retryCount
  faults : ∀ start fault, (resolving host start query settings token).1 = .error fault →
    ComesOfHost settings (resolving host start query settings token).2.exchanges fault

theorem isSafeFromNames_of_ok (described : Priority.ofNames settings.priority = .ok priority)
    (hinted : ofHint query.hint = .ok admitted) :
    IsSafeFromNames host query settings token priority admitted := by
  have proceeds : resolve host query settings token =
      rounds host query admitted priority settings token 1 settings.retryCount := by
    unfold resolve
    rw [described]
    dsimp only
    rw [hinted]
  constructor
  · exact described
  · exact filterM_admits hinted
  · exact proceeds
  · rw [proceeds, rounds_eq_roundsAnew host priority settings token hinted]
  · intro start fault failed
    exact comesOfHost_of_told (told_of_valid host token start described hinted) failed

/-- Names of kinds come first. On every host, under every token and any number of rounds, the
first unknown name of the settings ends a query at once; an unknown hint does where there is
none; and in every other case the query proceeds to its rounds, where no name can fail. -/
theorem names_settled_before_rounds (host : Host η) (query : Query) (settings : Settings)
    (token : Option (η → Bool)) :
    (∀ name, FirstUnknown settings.priority name →
        EndsAtOnce host query settings token (.unknownPriorityKind name)) ∧
      ((∀ name, ¬ FirstUnknown settings.priority name) →
        (∀ name, HintUnknown query.hint name →
            EndsAtOnce host query settings token (.unknownHint name)) ∧
          ((∀ name, ¬ HintUnknown query.hint name) →
            ∃ priority admitted,
              IsSafeFromNames host query settings token priority admitted)) := by
  refine ⟨fun name first => ?_, fun none => ?_⟩
  · exact endsAtOnce_of_namesUnknown (.inl (Priority.ofNames_of_firstUnknown first))
  obtain ⟨priority, described⟩ := exists_ofNames (forall_isName_of_none_unknown none)
  refine ⟨fun name unknown => ?_, fun noHint => ?_⟩
  · exact endsAtOnce_of_namesUnknown (.inr ⟨⟨priority, described⟩, ofHint_of_unknown unknown⟩)
  · obtain ⟨admitted, hinted⟩ := exists_ofHint (hintIsValid_of_none_unknown noHint)
    exact ⟨priority, admitted, isSafeFromNames_of_ok described hinted⟩

/-- The three cases: of two misspelt kinds of the settings the first counts, before a misspelt
hint and although the request was cancelled; then the misspelt hint does; and without either no
name fails. -/
theorem names_settled_before_rounds_of_misspelt :
    let misspelt := { Script.settings with priority := ["Class", "Klass", "Funktion"] }
    let cancelled : Option (Script → Bool) := some fun _ => true
    EndsAtOnce Script.host ⟨"f", some "Klasse"⟩ misspelt cancelled
        (.unknownPriorityKind "Klass") ∧
      EndsAtOnce Script.host ⟨"f", some "Klasse"⟩ Script.settings cancelled
        (.unknownHint "Klasse") ∧
      ∃ priority admitted,
        IsSafeFromNames Script.host ⟨"f", some "Function"⟩ Script.settings none priority
          admitted := by
  intro misspelt cancelled
  have first : FirstUnknown misspelt.priority "Klass" :=
    ⟨["Class"], ["Funktion"], rfl, by decide, by decide⟩
  have unknown : HintUnknown (some "Klasse") "Klasse" := ⟨rfl, by decide, by decide⟩
  have known := not_firstUnknown_of_known Script.names
  have hinted (name : String) : ¬ HintUnknown (some "Function") name := by
    rintro ⟨same, -, unknown⟩
    exact unknown ⟨.function, Option.some.inj same⟩
  refine ⟨?_, ?_, ?_⟩
  · exact (names_settled_before_rounds _ _ misspelt _).1 "Klass" first
  · exact ((names_settled_before_rounds _ _ Script.settings _).2 known).1 "Klasse" unknown
  · exact ((names_settled_before_rounds _ _ Script.settings _).2 known).2 hinted

end Resolution

end SymbolJump
