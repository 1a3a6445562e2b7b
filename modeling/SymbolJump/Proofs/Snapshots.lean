/-
# Exact matches in a snapshot

An index file answers a query with what matches it roughly: the lower-case form of the query has to
occur, character by character, in the lower-case form of a name. A decorated form of a name holds
the name itself, so a rough match would find every exact one if lower case looked at nothing but
the characters. It looks at neighbours of a capital sigma, and this hides some exact matches: where
a name starts with marks and a capital sigma that no letter follows, a qualifier that ends with a
letter, such as a class and a dot, turns this sigma into its final form.

So a round over a snapshot lists an exact match unless its qualifier hides the name, and one exact
match of a wanted kind that is not hidden is enough to settle a query among exact matches.
-/
import SymbolJump.Proofs.Lowercasing
import SymbolJump.Proofs.PlainNames
import SymbolJump.Proofs.StateFiles
import SymbolJump.Proofs.WideTexts
import SymbolJump.Terminal

namespace SymbolJump

open Act

namespace Text

/-- Characters without a letter in front change nothing behind a text. -/
theorem meetsCased_append_of_not {text after : List Char} (none : meetsCased after = false) :
    meetsCased (text ++ after) = meetsCased text := by
  induction text with
  | nil => exact none
  | cons first text ih =>
      rw [List.cons_append]
      by_cases mark : IsMark first
      · have passed : ∀ c ∈ [first], IsMark c := List.forall_mem_singleton.mpr mark
        have longer := meetsCased_marks passed (text ++ after)
        have shorter := meetsCased_marks passed text
        exact longer.trans (ih.trans shorter.symm)
      · rw [meetsCased_cons mark, meetsCased_cons mark]

theorem lowerAmid_append_of_not (before text after : List Char) {ending : List Char}
    (none : meetsCased ending = false) :
    lowerAmid before text (after ++ ending) = lowerAmid before text after := by
  apply lowerAmid_congr
  intro front back cut
  rw [← List.append_assoc, meetsCased_append_of_not none]

end Text

namespace Name

open Text

/-- A qualifier hides a name: it turns the capital sigma at the start of the name, and the name up
to that sigma does not occur in the qualifier itself. -/
def Hides (raw query : String) : Prop :=
  ∃ marks rest, StartsOpen query.toList marks rest ∧
    meetsCased (qualifier raw).reverse = true ∧
      ¬ (lowercase marks ++ ['σ']).Sublist (lowerAmid [] (qualifier raw) query.toList)

/-- A plain name is a rough match for its decorated form unless the decoration hides it. -/
theorem matchesRoughly_iff_of_exact {raw query : String} (exact : plain raw = query) :
    matchesRoughly query raw = true ↔ ¬ Hides raw query := by
  obtain ⟨ending, cut, bare⟩ := exists_toList_eq raw
  rw [exact] at cut
  have apart : meetsCased ending = false := by
    rcases bare with rfl | rfl
    · rfl
    · decide +kernel
  have small : 'σ' ∉ lowerFrom ((qualifier raw ++ query.toList).reverse ++ []) ending := by
    rcases bare with rfl | rfl
    · exact List.not_mem_nil
    · rw [lowerFrom_eq_lowerAmid, lowerAmid_of_not_mem (by decide)]
      decide +kernel
  have lowered : lowercase raw.toList =
      lowerAmid [] (qualifier raw) query.toList ++
        (lowerAmid (qualifier raw).reverse query.toList [] ++
          lowerFrom ((qualifier raw ++ query.toList).reverse ++ []) ending) := by
    have here := lowerAmid_append_of_not [] (qualifier raw ++ query.toList) [] apart
    rw [List.nil_append] at here
    rw [lowercase, cut, lowerFrom_append, here, lowerAmid_append, List.append_nil, List.append_nil,
      List.append_assoc]
  rw [matchesRoughly, List.isSublist_iff_sublist, lowered]
  by_cases turned : meetsCased (qualifier raw).reverse = true ∧
      ∃ marks rest, StartsOpen query.toList marks rest
  case neg =>
    rw [lowerAmid_of_unturned turned]
    refine iff_of_true ?_ ?_
    · exact (List.sublist_append_left _ _).trans (List.sublist_append_right _ _)
    · rintro ⟨marks, rest, starts, letter, -⟩
      exact turned ⟨letter, marks, rest, starts⟩
  obtain ⟨letter, marks, rest, starts⟩ := turned
  obtain ⟨tail, alone, behind⟩ := lowerAmid_of_turned letter starts
  rw [alone, behind, sublist_replaced_iff (by decide) (not_mem_lowercase_marks starts.front) small]
  constructor
  · rintro occurs ⟨others, later, other, -, none⟩
    rw [starts.unique other] at occurs
    exact none occurs
  · intro shown
    by_contra none
    exact shown ⟨marks, rest, starts, letter, none⟩

theorem not_isMark_hash : ¬ IsMark '#' := by
  unfold IsMark
  decide +kernel

/-- A hidden name has no hash sign in front. -/
theorem needle_of_hides {raw query : String} (hides : Hides raw query) :
    IndexFile.needle (wholes query) = wholes query := by
  obtain ⟨marks, rest, starts, -, -⟩ := hides
  rw [wholes, starts.cut]
  cases marks with
  | nil => rfl
  | cons c marks =>
      have mark := starts.front c List.mem_cons_self
      unfold IndexFile.needle
      split
      · next hash =>
        obtain rfl := Glyph.whole.inj (List.cons.inj hash).1
        exact absurd mark not_isMark_hash
      · rfl

end Name

theorem Host.start_debug {σ : Type} (host : Host σ) (message : String) (state : σ) :
    (host.debug message).start state = (.ok (), host.log ⟨.debug, message⟩ state) := rfl

namespace IndexFile

open Text

variable {limit : Option Nat} {reach : Json.Reach} {disk : Files.Disk} {path : String}
  {entries : List IndexEntry} {candidates : List Candidate}

/-- An entry becomes a candidate of the same name. -/
structure Becomes (entry : IndexEntry) (candidate : Candidate) : Prop where
  name : entry.name = .text (wide candidate.name)
  whole : entry.toCandidate? = some candidate

/-- A value of a snapshot is a well-formed entry, with a text for its name. -/
def Spells (value : Json Wide) (candidate : Candidate) : Prop :=
  ∃ entry, IndexEntry.ofJson value = .ok entry ∧ Becomes entry candidate

/-- The index file at a path is a snapshot of well-formed entries. -/
def Lists (reach : Json.Reach) (disk : Files.Disk) (path : String)
    (candidates : List Candidate) : Prop :=
  ∃ values, contents reach.read disk path = .ok (.entries values) ∧
    List.Forall₂ Spells values candidates

/-- Well-formed entries are read without a word. -/
theorem exists_start_entriesOf_of_spelled {values : List (Json Wide)} (machine : Machine)
    (spelled : List.Forall₂ Spells values candidates) :
    ∃ entries, (entriesOf limit values).start machine = (.ok entries, machine) ∧
      List.Forall₂ Becomes entries candidates := by
  induction spelled with
  | nil => exact ⟨[], rfl, .nil⟩
  | cons spells _ ih =>
      obtain ⟨entry, read, becomes⟩ := spells
      obtain ⟨entries, course, all⟩ := ih
      refine ⟨entry :: entries, ?_, .cons becomes all⟩
      rw [entriesOf, read]
      dsimp only
      rw [start_bind_of_ok course]
      rfl

theorem exists_matching (become : List.Forall₂ Becomes entries candidates) (needle : String) :
    ∃ found, matching (wholes needle) entries = .ok found ∧
      found.filterMap IndexEntry.toCandidate? =
        candidates.filter fun candidate => matchesRoughly needle candidate.name := by
  induction become with
  | nil => exact ⟨[], rfl, rfl⟩
  | @cons entry candidate _ _ here _ ih =>
      obtain ⟨found, answers, same⟩ := ih
      have named : entry.name.asText? = some (wide candidate.name) := by rw [here.name]; rfl
      refine ⟨if matchesRoughly needle candidate.name then entry :: found else found, ?_, ?_⟩
      · rw [matching, named]
        dsimp only
        rw [answers, glyphs_wide, occursRoughly_wholes]
        rfl
      · rw [List.filter_cons, ← same]
        split
        · rw [List.filterMap_cons, here.whole]
        · rfl

/-- A snapshot answers with the candidates that match roughly, and changes nothing. -/
theorem exists_start_query_of_lists {machine : Machine}
    (lists : Lists reach machine.disk path candidates) {text rest : String}
    (bare : needle (wholes text) = wholes rest) :
    ∃ found, (query reach path (wholes text)).start machine = (.ok found, machine) ∧
      found.filterMap IndexEntry.toCandidate? =
        candidates.filter fun candidate => matchesRoughly rest candidate.name := by
  obtain ⟨values, holds, spelled⟩ := lists
  obtain ⟨entries, course, all⟩ := exists_start_entriesOf_of_spelled machine spelled
  obtain ⟨found, answers, same⟩ := exists_matching all rest
  have reads : (Machine.ofDisk (contents reach.read · path)).start machine =
      (.ok (.entries values), machine) := by
    rw [Machine.start_ofDisk, holds]
  have loads : (load reach path).start machine = (.ok entries, machine) := by
    rw [load, start_bind_of_ok reads]
    exact course
  refine ⟨found, ?_, same⟩
  rw [query, start_bind_of_ok loads, bare, answers]
  rfl

/-- Without its hash sign, a text of characters is one. -/
theorem exists_needle_wholes (text : String) : ∃ rest, needle (wholes text) = wholes rest := by
  unfold needle
  split
  · next rest hash =>
    obtain ⟨_, chars, -, -, rfl⟩ := List.map_eq_cons_iff.mp hash
    exact ⟨String.ofList chars, by rw [wholes, String.toList_ofList]⟩
  · exact ⟨text, rfl⟩

end IndexFile

namespace Terminal

open IndexFile Resolution Text

variable {terminal : Terminal} {machine : Machine} {candidates : List Candidate}

/-- The course of a question to a snapshot and what follows it. -/
theorem exists_start_askFirst_of_lists
    (lists : Lists terminal.reach machine.disk terminal.indexPath candidates)
    {spelling bare : String} (isBare : needle (wholes spelling) = wholes bare)
    (rest : List String) :
    let symbols := candidates.filter fun candidate => matchesRoughly bare candidate.name
    ∃ after : Machine, after.disk = machine.disk ∧
      (askFirst terminal.host (spelling :: rest)).start machine =
        if symbols.isEmpty then (askFirst terminal.host rest).start after
        else (.ok symbols, after) := by
  intro symbols
  obtain ⟨found, course, same⟩ := exists_start_query_of_lists lists isBare
  have asks : (terminal.host.query spelling).start machine = (.ok (some symbols), machine) := by
    show (do return some ((← IndexFile.query terminal.reach terminal.indexPath
      (wholes spelling)).filterMap IndexEntry.toCandidate?) : Act Machine _).start machine = _
    rw [start_bind_of_ok course, same]
    rfl
  refine ⟨machine.log ⟨.debug, "query=\"" ++ spelling ++ "\", results=" ++
    toString symbols.length⟩, rfl, ?_⟩
  rw [askFirst, start_bind_of_ok asks, Option.getD_some,
    start_bind_of_ok (Host.start_debug terminal.host _ machine)]
  split
  · rfl
  · rfl

/-- A round over a snapshot answers with candidates, and with an exact match unless it is hidden. -/
theorem exists_findSymbols (terminal : Terminal) (candidates : List Candidate) (name : String) :
    ∃ symbols : List Candidate,
      (∀ machine : Machine, Lists terminal.reach machine.disk terminal.indexPath candidates →
        ∃ after, (findSymbols terminal.host name).start machine = (.ok symbols, after)) ∧
      symbols.Sublist candidates ∧
      ∀ candidate ∈ candidates, candidate.isExactFor name = true →
        (candidate ∈ symbols ↔ ¬ Name.Hides candidate.name name) := by
  have listed (candidate : Candidate) (member : candidate ∈ candidates)
      (exact : candidate.isExactFor name = true) :
      candidate ∈ candidates.filter (fun candidate => matchesRoughly name candidate.name) ↔
        ¬ Name.Hides candidate.name name := by
    rw [List.mem_filter, and_iff_right member]
    exact Name.matchesRoughly_iff_of_exact ((Name.isExact_eq_true_iff _ _).mp exact)
  have first : needle (wholes ("#" ++ name)) = wholes name := by
    rw [wholes, String.toList_append]
    rfl
  obtain ⟨bare, second⟩ := exists_needle_wholes name
  unfold findSymbols spellings
  by_cases none : (candidates.filter fun candidate =>
      matchesRoughly name candidate.name).isEmpty = true
  case neg =>
    refine ⟨_, fun machine lists => ?_, List.filter_sublist, listed⟩
    obtain ⟨asked, -, course⟩ := exists_start_askFirst_of_lists lists first [name]
    rw [if_neg none] at course
    exact ⟨asked, course⟩
  refine ⟨candidates.filter fun candidate => matchesRoughly bare candidate.name,
    fun machine lists => ?_, List.filter_sublist, fun candidate member exact => ?_⟩
  · obtain ⟨asked, same, course⟩ := exists_start_askFirst_of_lists lists first [name]
    rw [if_pos none] at course
    rw [← same] at lists
    obtain ⟨after, -, again⟩ := exists_start_askFirst_of_lists lists second []
    rw [course, again]
    split
    · next empty => exact ⟨after, by rw [List.isEmpty_iff.mp empty]; rfl⟩
    · exact ⟨after, rfl⟩
  · -- Whatever the first question did not find is hidden, and is asked for as it was before.
    have hides : Name.Hides candidate.name name := by
      by_contra shown
      have found := (listed candidate member exact).mpr shown
      rw [List.isEmpty_iff.mp none] at found
      cases found
    have same : bare = name := by
      rw [← mended_wholes bare, ← second, Name.needle_of_hides hides, mended_wholes]
    rw [same]
    exact listed candidate member exact

end Terminal

namespace Resolution

variable {σ : Type} {host : Host σ} {query : Query} {settings : Settings}
  {token : Option (σ → Bool)} {symbols : List Candidate} {state : σ}

/-- A query is settled by a choice among the exact matches of a wanted kind, whatever else there
is. -/
structure SettlesExactly (host : Host σ) (query : Query) (settings : Settings)
    (token : Option (σ → Bool)) (symbols : List Candidate) (state : σ) : Prop where
  some : query.exact symbols ≠ []
  chosen : ∃ priority middle, Priority.ofNames settings.priority = .ok priority ∧
    let choice := (Choice.select host priority settings.many (query.exact symbols)).start middle
    (resolve host query settings token).start state =
      (choice.1.mapError fun fault => .request (asRequestError fault), choice.2)
  matched : ((resolve host query settings token).start state).1 ≠ .ok .notFound

theorem start_pick_fst (prompt : String) (candidates : List Candidate) :
    ((Choice.pick host prompt candidates).start state).1 =
      ((host.pick prompt candidates).start state).1.map Choice.outcomeOf := by
  rw [Choice.pick, start_bind]
  rcases (host.pick prompt candidates).start state with ⟨fault | _ | candidate, after⟩
  · rfl
  · rfl
  · rfl

/-- A choice among candidates finds one of them or is cancelled. -/
theorem start_select_ne_notFound (priority : Priority) (policy : ManyPolicy)
    (candidates : List Candidate) :
    ((Choice.select host priority policy candidates).start state).1 ≠ .ok .notFound := by
  unfold Choice.select
  rcases Choice.sortByPriority priority candidates with _ | ⟨first, _ | ⟨next, others⟩⟩
  · exact fun same => nomatch same
  · exact fun same => nomatch same
  cases policy with
  | first => exact fun same => nomatch same
  | byRoot => exact fun same => nomatch same
  | pick =>
      dsimp only
      rw [start_pick_fst]
      rcases ((host.pick Choice.exactPrompt (first :: next :: others)).start state).1 with
        fault | _ | candidate
      · exact fun same => nomatch same
      · exact fun same => nomatch same
      · exact fun same => nomatch same

/-- Exact matches of a wanted kind are chosen among. -/
theorem start_settle_of_exact {priority : Priority} {admitted : Option (List Kind)}
    (hinted : Kind.ofHint query.hint = .ok admitted) (some : query.exact symbols ≠ []) :
    (settle host query admitted priority settings.many symbols).start state =
      (Choice.select host priority settings.many (query.exact symbols)).start state := by
  have exact : (!(exactIn query admitted symbols).isEmpty) = true := by
    rw [exactIn_eq_exact hinted]
    simpa using some
  unfold settle
  dsimp only
  rw [← inKind, ← exactIn, if_pos exact, exactIn_eq_exact hinted]

/-- A round whose answer holds exact matches ends in a choice among them. -/
theorem start_round_of_exact {priority : Priority} {admitted : Option (List Kind)} {after : σ}
    (hinted : Kind.ofHint query.hint = .ok admitted) (some : query.exact symbols ≠ [])
    (found : (findSymbols host query.name).start state = (.ok symbols, after)) :
    ∃ middle, (round host query admitted priority settings.many).start state =
      let choice := (Choice.select host priority settings.many (query.exact symbols)).start middle
      (choice.1.map Option.some, choice.2) := by
  have given : ¬ symbols.isEmpty = true := by
    intro empty
    rw [List.isEmpty_iff.mp empty] at some
    exact some rfl
  refine ⟨host.log ⟨.debug, "raw results: " ++ (summary symbols).compact⟩ after, ?_⟩
  rw [Resolution.round, start_bind_of_ok found, if_neg given,
    start_bind_of_ok (Host.start_debug host _ after), start_bind_pure,
    start_settle_of_exact hinted some]

/-- Exact matches in the first answer settle a query. -/
theorem settlesExactly_of_round {priority : Priority} {admitted : Option (List Kind)}
    (known : Priority.ofNames settings.priority = .ok priority)
    (hinted : Kind.ofHint query.hint = .ok admitted) (rounds : 1 ≤ settings.retryCount)
    (goesOn : stops token state = false)
    (finds : ∀ line, ∃ after, (findSymbols host query.name).start (host.log line state) =
      (.ok symbols, after))
    (some : query.exact symbols ≠ []) :
    SettlesExactly host query settings token symbols state := by
  obtain ⟨left, more⟩ := Nat.exists_eq_succ_of_ne_zero (Nat.ne_of_gt rounds)
  obtain ⟨after, found⟩ :=
    finds ⟨.debug, "attempt " ++ (toString 1 ++ "/" ++ toString settings.retryCount)⟩
  obtain ⟨middle, round⟩ := start_round_of_exact hinted some found
  let choice := (Choice.select host priority settings.many (query.exact symbols)).start middle
  change _ = (choice.1.map Option.some, choice.2) at round
  have course : (resolve host query settings token).start state =
      (choice.1.mapError fun fault => .request (asRequestError fault), choice.2) := by
    unfold resolve
    rw [known]
    dsimp only
    rw [hinted]
    dsimp only
    rw [more, Resolution.rounds, start_bind_of_ok (start_get state)]
    dsimp only
    rw [← stops, goesOn, if_neg Bool.false_ne_true,
      start_bind_of_ok (Host.start_debug host _ state),
      start_bind, start_tryCatch, round]
    rcases choice with ⟨fault | outcome, last⟩
    · rfl
    · rfl
  refine ⟨some, ⟨priority, middle, known, course⟩, ?_⟩
  rw [course]
  have matched : choice.1 ≠ .ok .notFound := start_select_ne_notFound _ _ _
  rcases choice with ⟨fault | outcome, last⟩
  · intro same
    cases same
  · exact fun same => matched same

end Resolution

namespace Terminal

open IndexFile Resolution

/-- Over a snapshot of well-formed entries, a round lists an exact match if and only if its
qualifier does not hide the name, and a query is settled among its exact matches if and only if one
of a wanted kind is not hidden. -/
theorem exact_matches_listed_unless_hidden {terminal : Terminal} {machine : Machine}
    {candidates : List Candidate}
    (lists : Lists terminal.reach machine.disk terminal.indexPath candidates) (query : Query) :
    ∃ symbols after, (findSymbols terminal.host query.name).start machine = (.ok symbols, after) ∧
      symbols.Sublist candidates ∧
      (∀ candidate ∈ candidates, candidate.isExactFor query.name = true →
        (candidate ∈ symbols ↔ ¬ Name.Hides candidate.name query.name)) ∧
      ∀ settings token, (∀ name ∈ settings.priority, ∃ kind : Kind, kind.name = name) →
        HintIsValid query.hint → 1 ≤ settings.retryCount → stops token machine = false →
          (SettlesExactly terminal.host query settings token symbols machine ↔
            ∃ candidate ∈ query.exact candidates, ¬ Name.Hides candidate.name query.name) := by
  obtain ⟨symbols, asks, part, listed⟩ := exists_findSymbols terminal candidates query.name
  obtain ⟨after, found⟩ := asks machine lists
  refine ⟨symbols, after, found, part, listed, ?_⟩
  intro settings token knownPriority knownHint rounds goesOn
  obtain ⟨priority, known⟩ := exists_ofNames knownPriority
  obtain ⟨admitted, hinted⟩ := exists_ofHint knownHint
  have kept (candidate : Candidate) :
      candidate ∈ query.exact symbols ↔ candidate ∈ query.exact candidates ∧
        ¬ Name.Hides candidate.name query.name := by
    simp only [Query.exact, Query.wanted, List.mem_filter]
    constructor
    · rintro ⟨⟨member, wanted⟩, exact⟩
      have among := part.subset member
      exact ⟨⟨⟨among, wanted⟩, exact⟩, (listed candidate among exact).mp member⟩
    · rintro ⟨⟨⟨among, wanted⟩, exact⟩, shown⟩
      exact ⟨⟨(listed candidate among exact).mpr shown, wanted⟩, exact⟩
  constructor
  · rintro ⟨some, -, -⟩
    obtain ⟨candidate, member⟩ := List.exists_mem_of_ne_nil _ some
    exact ⟨candidate, (kept candidate).mp member⟩
  · rintro ⟨candidate, member⟩
    have some : query.exact symbols ≠ [] := List.ne_nil_of_mem ((kept candidate).mpr member)
    exact settlesExactly_of_round known hinted rounds goesOn (fun line => asks _ lists) some

/-- A method of a class is listed under its plain name. -/
theorem exact_match_listed_of_method :
    let bytes := Text.Utf8.encode
      "[\x7b\"name\":\"A.f()\",\"kind\":6,\"location\":\x7b\"uri\":\"file:///p/a.py\"\x7d\x7d]"
    let disk : Files.Disk := { tree := .folder [("i.json", .file bytes)], current := [] }
    let method : Candidate := ⟨"A.f()", .method, { path := "/p/a.py" }, .null⟩
    let terminal : Terminal := { roots := ["/"], indexPath := "/i.json", editorCommand := "" }
    Lists {} disk "/i.json" [method] ∧
      ∃ symbols after, (findSymbols terminal.host "f").start { disk } = (.ok symbols, after) ∧
        method ∈ symbols := by
  intro bytes disk method terminal
  have lists : Lists {} disk "/i.json" [method] := by
    refine ⟨[.object [("name", .text (Text.wide "A.f()")), ("kind", .int 6),
      ("location", .object [("uri", .text (Text.wide "file:///p/a.py"))])]], by decide +kernel, ?_⟩
    exact .cons ⟨⟨.text (Text.wide "A.f()"), .method, Text.wholes "/p/a.py", .int 0, .int 0, .null⟩,
      by decide +kernel, rfl, by decide +kernel⟩
      .nil
  have shown : ¬ Name.Hides "A.f()" "f" := by
    rintro ⟨marks, rest, starts, -, -⟩
    have sigma : 'Σ' ∈ "f".toList := by
      rw [starts.cut]
      exact List.mem_append_cons_self
    exact absurd sigma (by decide)
  obtain ⟨symbols, after, found, -, listed, -⟩ :=
    @exact_matches_listed_unless_hidden terminal { disk } [method] lists ⟨"f", none⟩
  exact ⟨lists, symbols, after, found,
    (listed method (List.mem_singleton_self _) (by decide +kernel)).mpr shown⟩

/-- A class that is named by a capital sigma in another class is not found under its plain name. -/
theorem exact_match_not_listed_of_sigma :
    let bytes := Text.Utf8.encode
      "[\x7b\"name\":\"A.Σ\",\"kind\":5,\"location\":\x7b\"uri\":\"file:///p/a.py\"\x7d\x7d]"
    let disk : Files.Disk := { tree := .folder [("i.json", .file bytes)], current := [] }
    let inner : Candidate := ⟨"A.Σ", .classType, { path := "/p/a.py" }, .null⟩
    let terminal : Terminal := { roots := ["/"], indexPath := "/i.json", editorCommand := "" }
    Lists {} disk "/i.json" [inner] ∧ inner.isExactFor "Σ" = true ∧
      ((findSymbols terminal.host "Σ").start { disk }).1.toOption = some [] ∧
      ((resolve terminal.host ⟨"Σ", none⟩ Script.settings none).start { disk }).1.toOption =
        some .notFound := by
  intro bytes disk inner terminal
  have lists : Lists {} disk "/i.json" [inner] := by
    refine ⟨[.object [("name", .text (Text.wide "A.Σ")), ("kind", .int 5),
      ("location", .object [("uri", .text (Text.wide "file:///p/a.py"))])]], by decide +kernel, ?_⟩
    exact .cons
      ⟨⟨.text (Text.wide "A.Σ"), .classType, Text.wholes "/p/a.py", .int 0, .int 0, .null⟩,
        by decide +kernel, rfl, by decide +kernel⟩
      .nil
  exact ⟨lists, by decide +kernel, by decide +kernel, by decide +kernel⟩

end Terminal

end SymbolJump
