/-
# How a language is detected

Which calls wake the index is settled by what is open and by what the searches answer. Nothing is
called when a source document is open. Otherwise there is one search for a source file, and the
first file that it answers with is loaded: the detector is the first one for the configured
language, or the one whose marker is the first to be found. Markers are searched for in the order
of the detectors, and of each detector in its own order, and no further than the first one found.

A host may change with every call, so each search is answered where the calls before it lead.
-/
import SymbolJump.Proofs.TypedDetectors
import SymbolJump.Proofs.Failures

namespace SymbolJump

open Act

variable {η α β : Type}

/-- The search for a marker. -/
def Call.ofMarker (marker : Value) : Call :=
  .findFiles marker .null (some 1)

/-- The search for a source file. -/
def Call.ofSource (detector : Detector) : Call :=
  .findFiles detector.pattern detector.excluded (some 1)

namespace Host

variable (host : Host η) (start : η)

/-- No search for files fails. -/
def AnswersSearches : Prop :=
  ∀ wanted excluded limit state,
    ∃ paths, ((host.findFiles wanted excluded limit).start state).1 = .ok paths

/-- What a search for one file, made after other calls, is answered with. -/
def found (made : List Call) (wanted excluded : Value) : List String :=
  match ((host.findFiles wanted excluded (some 1)).start (host.after start made)).1 with
  | .ok paths => paths
  | .error _ => []

/-- A document is open whose extension is one that the detectors stand for. -/
def HasOpenSource (detectors : List Detector) : Prop :=
  ∃ path ∈ host.documents start, ∃ detector ∈ detectors, ∃ known,
    detector.extensions = .ok known ∧ Path.extension path ∈ known

/-- No marker is found when one after the other is searched for. -/
def Misses (markers : List Value) : Prop :=
  ∀ tried marker untried, markers = tried ++ marker :: untried →
    host.found start (tried.map .ofMarker) marker .null = []

/-- After some calls, the search for a source file, and at last the load of the first one in its
answer, if any. -/
def withSource (made : List Call) (detector : Detector) : List Call :=
  made ++ .ofSource detector ::
    ((host.found start made detector.pattern detector.excluded).head?.map .load).toList

variable {host start}

theorem misses_nil : host.Misses start [] := by
  intro tried marker untried same
  exact absurd same.symm (List.append_ne_nil_of_right_ne_nil _ (List.cons_ne_nil _ _))

/-- Another marker is missed where the searches before it lead. -/
theorem Misses.concat {markers : List Value} {marker : Value} (misses : host.Misses start markers)
    (missed : host.found start (markers.map .ofMarker) marker .null = []) :
    host.Misses start (markers ++ [marker]) := by
  intro tried other untried same
  rcases List.eq_nil_or_concat untried with rfl | ⟨untried, last, rfl⟩
  · obtain ⟨rfl, last⟩ := List.append_inj' same rfl
    rwa [← (List.cons.inj last).1]
  · rw [List.concat_eq_append, ← List.cons_append, ← List.append_assoc] at same
    exact misses tried other untried (List.append_inj' same rfl).1

end Host

/-- The calls that wake an index: which they are is settled by the open documents, the configured
language and the answers to the searches. -/
inductive Detects (host : Host η) (start : η) (detectors : List Detector)
    (language : Option Value) : List Call → Prop
  /-- A source document is open already. -/
  | awake (opened : host.HasOpenSource start (Activation.relevant detectors language)) :
      Detects host start detectors language []
  /-- The first detector for the configured language decides. -/
  | configured {value : Value} {earlier later : List Detector} {detector : Detector}
      (asleep : ¬ host.HasOpenSource start (Activation.relevant detectors language))
      (same : language = some value) (listed : detectors = earlier ++ detector :: later)
      (isFor : detector.isFor value = true)
      (first : ∀ other ∈ earlier, other.isFor value = false) :
      Detects host start detectors language (host.withSource start [] detector)
  /-- The first marker that is found decides. -/
  | marked {earlier later : List Detector} {detector : Detector} {tried untried : List Value}
      {marker : Value}
      (asleep : ¬ host.HasOpenSource start (Activation.relevant detectors language))
      (unmatched : ∀ value, language = some value →
        ∀ detector ∈ detectors, detector.isFor value = false)
      (listed : detectors = earlier ++ detector :: later)
      (within : detector.markers = tried ++ marker :: untried)
      (misses : host.Misses start (earlier.flatMap Detector.markers ++ tried))
      (hits : host.found start ((earlier.flatMap Detector.markers ++ tried).map .ofMarker)
        marker .null ≠ []) :
      Detects host start detectors language (host.withSource start
        ((earlier.flatMap Detector.markers ++ tried ++ [marker]).map .ofMarker) detector)
  /-- No marker is found. -/
  | unmarked
      (asleep : ¬ host.HasOpenSource start (Activation.relevant detectors language))
      (unmatched : ∀ value, language = some value →
        ∀ detector ∈ detectors, detector.isFor value = false)
      (misses : host.Misses start (detectors.flatMap Detector.markers)) :
      Detects host start detectors language
        ((detectors.flatMap Detector.markers).map .ofMarker)

namespace Detector

theorem mem_of_mapM_extensions {detectors : List Detector} {known : List (List String)}
    (read : detectors.mapM extensions = .ok known) {list : List String} :
    list ∈ known ↔ ∃ detector ∈ detectors, detector.extensions = .ok list := by
  induction detectors generalizing known with
  | nil =>
      cases read
      simp
  | cons detector detectors ih =>
      rw [List.mapM_cons] at read
      obtain ⟨first, here, read⟩ := exists_of_bind_eq_ok read
      obtain ⟨others, later, read⟩ := exists_of_bind_eq_ok read
      cases read
      rw [List.mem_cons, List.exists_mem_cons_iff, here, ih later, Except.ok.injEq, eq_comm]

/-- Whether a source document is open is answered by the extensions of the detectors. -/
theorem anyOpen_eq_true_iff {documents : List String} {detectors : List Detector} {known : Bool}
    (answers : anyOpen documents detectors = .ok known) :
    known = true ↔ ∃ path ∈ documents, ∃ detector ∈ detectors, ∃ known,
      detector.extensions = .ok known ∧ Path.extension path ∈ known := by
  obtain ⟨lists, read, answers⟩ := exists_of_bind_eq_ok answers
  cases answers
  simp only [List.any_eq_true, List.contains_iff_mem, mem_of_mapM_extensions read]
  grind

end Detector

namespace Bench

variable {host : Host η} {start : η} {bench : Bench η}

/-- The host is where the recorded calls lead. -/
def IsTracked (host : Host η) (start : η) (bench : Bench η) : Prop :=
  bench.host = host.after start bench.calls

theorem isTracked_nil (lines : List LogLine) (settings : Except Fault Settings) :
    IsTracked host start { host := start, lines, settings } :=
  rfl

/-- What makes no call leaves the calls of what was done before it. -/
theorem calls_bind {act : Act (Bench η) α} {next : α → Act (Bench η) β}
    (silent : ∀ answer bench, ((next answer).start bench).2.calls = bench.calls)
    (bench : Bench η) : ((act >>= next).start bench).2.calls = (act.start bench).2.calls := by
  rw [start_bind]
  rcases act.start bench with ⟨fault | answer, after⟩
  · rfl
  · exact silent answer after

theorem start_findFiles (answers : host.AnswersSearches) (tracked : IsTracked host start bench)
    (wanted excluded : Value) :
    ∃ after, ((hostOf host).findFiles wanted excluded (some 1)).start bench =
        (.ok (host.found start bench.calls wanted excluded), after) ∧
      IsTracked host start after ∧
      after.calls = bench.calls ++ [.findFiles wanted excluded (some 1)] := by
  obtain ⟨paths, answered⟩ := answers wanted excluded (some 1) bench.host
  refine ⟨_, Prod.ext ?_ rfl, ?_, rfl⟩
  · show ((host.findFiles wanted excluded (some 1)).start bench.host).1 = _
    rw [Host.found, ← tracked, answered]
  · show ((host.findFiles wanted excluded (some 1)).start bench.host).2 =
      host.after start (bench.calls ++ [.findFiles wanted excluded (some 1)])
    rw [host.after_concat, ← tracked, Host.finish, Act.finish]
    rcases (host.findFiles wanted excluded (some 1)).start bench.host with ⟨fault | paths, after⟩
    · rfl
    · rfl

theorem calls_loadFirst (answers : host.AnswersSearches) (tracked : IsTracked host start bench)
    (detector : Detector) :
    ((Activation.loadFirst (hostOf host) detector).start bench).2.calls =
      host.withSource start bench.calls detector := by
  obtain ⟨after, found, -, made⟩ :=
    start_findFiles answers tracked detector.pattern detector.excluded
  rw [Activation.loadFirst, start_bind_of_ok found]
  cases answer : host.found start bench.calls detector.pattern detector.excluded with
  | nil => simp [Host.withSource, answer, made, Call.ofSource]
  | cons path others =>
      rw [calls_bind fun _ _ => rfl]
      show ((recorded _ _).start after).2.calls = _
      simp [Host.withSource, answer, made, Call.ofSource]

theorem calls_activateFor (answers : host.AnswersSearches) (tracked : IsTracked host start bench)
    (value : Value) (detector : Detector) :
    ((Activation.activateFor (hostOf host) value detector).start bench).2.calls =
      host.withSource start bench.calls detector := by
  rw [Activation.activateFor, calls_bind, calls_loadFirst answers tracked]
  rintro (_ | path) bench
  · rfl
  · rfl

/-- The calls of a search through markers: none is found, or one is, and none before it. -/
inductive Marks (host : Host η) (start : η) : List (Value × Detector) → List Call → Prop
  | marked {tried untried : List (Value × Detector)} {marker : Value} {detector : Detector}
      (misses : host.Misses start (tried.map Prod.fst))
      (hits : host.found start ((tried.map Prod.fst).map .ofMarker) marker .null ≠ []) :
      Marks host start (tried ++ (marker, detector) :: untried)
        (host.withSource start ((tried.map Prod.fst ++ [marker]).map .ofMarker) detector)
  | unmarked {entries : List (Value × Detector)}
      (misses : host.Misses start (entries.map Prod.fst)) :
      Marks host start entries ((entries.map Prod.fst).map .ofMarker)

/-- Until a marker is found, those tried were searched for in turn and missed. -/
theorem marks_activateByMarkers (answers : host.AnswersSearches)
    (tracked : IsTracked host start bench) (tried rest : List (Value × Detector))
    (made : bench.calls = (tried.map Prod.fst).map .ofMarker)
    (misses : host.Misses start (tried.map Prod.fst)) :
    Marks host start (tried ++ rest)
      ((Activation.activateByMarkers (hostOf host) rest).start bench).2.calls := by
  induction rest generalizing tried bench with
  | nil =>
      rw [List.append_nil, Activation.activateByMarkers]
      show Marks host start tried bench.calls
      rw [made]
      exact .unmarked misses
  | cons entry rest ih =>
      obtain ⟨marker, detector⟩ := entry
      obtain ⟨after, found, tracked, further⟩ := start_findFiles answers tracked marker .null
      have made' : after.calls = (tried.map Prod.fst ++ [marker]).map .ofMarker := by
        rw [further, made, List.map_append]
        rfl
      rw [Activation.activateByMarkers, start_bind_of_ok found, made]
      cases answer : host.found start ((tried.map Prod.fst).map .ofMarker) marker .null with
      | nil =>
          have missed : host.Misses start ((tried ++ [(marker, detector)]).map Prod.fst) := by
            rw [List.map_append]
            exact misses.concat answer
          have later := ih tracked (tried ++ [(marker, detector)]) (by simpa using made') missed
          rwa [List.append_assoc] at later
      | cons path others =>
          have hits : host.found start ((tried.map Prod.fst).map .ofMarker) marker .null ≠ [] := by
            rw [answer]
            exact List.cons_ne_nil _ _
          have loaded : Marks host start (tried ++ (marker, detector) :: rest) _ :=
            .marked misses hits
          rw [← made', ← calls_loadFirst answers tracked detector] at loaded
          show Marks host start _ (((_ >>= _ : Act (Bench η) Unit).start after).2.calls)
          rw [calls_bind]
          · exact loaded
          rintro (_ | path) bench
          · rfl
          · rfl

end Bench

namespace Activation

variable {host : Host η} {start : η} {detectors : List Detector}

theorem map_fst_markers (detectors : List Detector) :
    (markers detectors).map Prod.fst = detectors.flatMap Detector.markers := by
  simp [markers, List.map_flatMap, Function.comp_def]

/-- A marker among those of all detectors is one of its detector, and in front of it are the markers
of the detectors in front, and those of its own. -/
theorem exists_of_markers {tried untried : List (Value × Detector)} {marker : Value}
    {detector : Detector} (same : markers detectors = tried ++ (marker, detector) :: untried) :
    ∃ earlier later before after, detectors = earlier ++ detector :: later ∧
      detector.markers = before ++ marker :: after ∧
        tried.map Prod.fst = earlier.flatMap Detector.markers ++ before := by
  induction detectors generalizing tried with
  | nil => exact absurd same.symm (List.append_ne_nil_of_right_ne_nil _ (List.cons_ne_nil _ _))
  | cons first detectors ih =>
      have further (others : List (Value × Detector))
          (rest : markers detectors = others ++ (marker, detector) :: untried)
          (all : tried.map Prod.fst = first.markers ++ others.map Prod.fst) :
          ∃ earlier later before after, first :: detectors = earlier ++ detector :: later ∧
            detector.markers = before ++ marker :: after ∧
              tried.map Prod.fst = earlier.flatMap Detector.markers ++ before := by
        obtain ⟨earlier, later, before, after, rfl, within, ahead⟩ := ih rest
        refine ⟨first :: earlier, later, before, after, rfl, within, ?_⟩
        rw [all, ahead, List.flatMap_cons, List.append_assoc]
      have own :
          (first.markers.map fun marker => (marker, first)).map Prod.fst = first.markers := by
        simp [Function.comp_def]
      rw [markers, List.flatMap_cons] at same
      rcases List.append_eq_append_iff.mp same with ⟨others, rfl, later⟩ | ⟨others, ahead, later⟩
      · exact further others later (by rw [List.map_append, own])
      cases others with
      | nil =>
          refine further [] later.symm ?_
          rw [← own, ahead]
          simp
      | cons entry others =>
          obtain ⟨before, behind, within, rfl, last⟩ := List.map_eq_append_iff.mp ahead
          obtain ⟨other, after, rfl, here, -⟩ := List.map_eq_cons_iff.mp last
          obtain ⟨rfl, -⟩ := List.cons.inj later
          cases here
          exact ⟨[], detectors, before, after, rfl, within, by simp [Function.comp_def]⟩

theorem detects_of_marks {language : Option Value} {calls : List Call}
    (asleep : ¬ host.HasOpenSource start (relevant detectors language))
    (unmatched : ∀ value, language = some value →
      ∀ detector ∈ detectors, detector.isFor value = false)
    (marks : Bench.Marks host start (markers detectors) calls) :
    Detects host start detectors language calls := by
  generalize all : markers detectors = entries at marks
  cases marks with
  | marked misses hits =>
      obtain ⟨earlier, later, before, after, listed, within, ahead⟩ := exists_of_markers all
      rw [ahead] at misses hits ⊢
      exact .marked asleep unmatched listed within misses hits
  | unmarked misses =>
      rw [← all, map_fst_markers] at misses ⊢
      exact .unmarked asleep unmatched misses

/-- Which calls wake an index is settled by the open documents, the configured language and the
answers to the searches: none, those for the configured language, or those for the first marker that
is found. -/
theorem detects_activate (host : Host η) (answers : host.AnswersSearches) (start : η)
    (settings : Except Fault Settings) (detectors : List Detector) (language : Option Value)
    (texts : ∀ detector ∈ relevant detectors language, ∃ pattern,
      detector.pattern = .text pattern) :
    Detects host start detectors language
      ((activate (Bench.hostOf host) detectors language).start
        { host := start, settings }).2.calls := by
  obtain ⟨known, read⟩ := (Detector.anyOpen_iff (host.documents start) _).mpr texts
  have open_iff : known = true ↔ host.HasOpenSource start (relevant detectors language) :=
    Detector.anyOpen_eq_true_iff read
  have documents : (Bench.hostOf host).documents { host := start, settings } =
      host.documents start := rfl
  have marked {lines : List LogLine} : Bench.Marks host start (markers detectors)
      ((activateByMarkers (Bench.hostOf host) (markers detectors)).start
        { host := start, lines, settings }).2.calls :=
    Bench.marks_activateByMarkers answers (Bench.isTracked_nil _ _) [] _ rfl Host.misses_nil
  unfold activate
  rw [start_bind_of_ok (start_get _), documents]
  dsimp only
  rw [read]
  cases known with
  | true => exact .awake (open_iff.mp rfl)
  | false =>
      have asleep := fun opened => Bool.false_ne_true (open_iff.mpr opened)
      cases language with
      | none => exact detects_of_marks asleep nofun marked
      | some value =>
          dsimp only
          cases first : detectors.find? (·.isFor value) with
          | none =>
              have unmatched := List.find?_eq_none.mp first
              apply detects_of_marks asleep
              · rintro _ ⟨⟩ detector member
                exact Bool.eq_false_iff.mpr (unmatched detector member)
              · exact marked
          | some detector =>
              obtain ⟨isFor, earlier, later, listed, others⟩ :=
                List.find?_eq_some_iff_append.mp first
              dsimp only
              rw [Bench.calls_activateFor answers (Bench.isTracked_nil _ _)]
              refine .configured asleep rfl listed isFor fun other member => ?_
              simpa using others other member

/-- With two detectors the marker of the second is found, and a source file of it is loaded. -/
theorem detects_activate_of_second :
    let host : Host Script := { Script.host with
      findFiles := fun wanted _ _ => pure
        (if wanted = .text "Cargo.toml" then [] else ["a.go", "b.go"]) }
    let rust : Detector :=
      { language := .text "rust", markers := [.text "Cargo.toml"], pattern := .text "**/*.rs" }
    let go : Detector :=
      { language := .text "go", markers := [.text "go.mod"], pattern := .text "**/*.go" }
    Detects host {} [rust, go] none [.ofMarker (.text "Cargo.toml"), .ofMarker (.text "go.mod"),
      .ofSource go, .load "a.go"] := by
  intro host rust go
  have answers : host.AnswersSearches := fun _ _ _ _ => ⟨_, rfl⟩
  have texts : ∀ detector ∈ relevant [rust, go] none, ∃ pattern,
      detector.pattern = .text pattern := by
    simp [relevant, rust, go]
  exact detects_activate host answers {} (.ok Script.settings) [rust, go] none texts

end Activation

end SymbolJump
