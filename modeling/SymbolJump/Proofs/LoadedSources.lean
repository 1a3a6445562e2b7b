/-
# Sources that were loaded

A search for a pattern answers with paths at which the pattern matches, as they stand below some
folder, and a document that was loaded is open from then on. On a host that keeps to this, such as
the terminal, an index that was woken by loading a source file stays awake as long as the document
is open, provided that the pattern of the detector spells the extensions that are read off it and
that the path has a stem. Any other pattern matches at a path that is not recognised once it is
open, so that the same file is loaded each time.
-/
import SymbolJump.Proofs.DerivedExtensions
import SymbolJump.Proofs.Limits
import SymbolJump.Proofs.Waking

namespace SymbolJump

open Act Text

/-- A pattern matches at a path, as the path stands below some folder. -/
def Glob.IsMatchAt (pattern path : String) : Prop :=
  ∃ relative, isMatch pattern relative = true ∧ Path.IsAt relative path

/-! ## The paths that are found -/

namespace Path

theorem joinWith_append {names others : List String} (some : names ≠ []) (more : others ≠ []) :
    joinWith "/" (names ++ others) = joinWith "/" names ++ "/" ++ joinWith "/" others := by
  induction names with
  | nil => exact absurd rfl some
  | cons name names ih =>
      cases names with
      | nil => exact joinWith_cons "/" name more
      | cons next names =>
          rw [List.cons_append, joinWith_cons "/" name (by simp), ih (List.cons_ne_nil _ _),
            joinWith_cons "/" name (List.cons_ne_nil _ _)]
          simp only [String.append_assoc]

/-- What lies below a root is at its path from there. -/
theorem isAt_under (root : String) {names : List String} (some : names ≠ []) :
    IsAt (joinWith "/" names) (under root names) := by
  have whole : components root ++ names ≠ [] := List.append_ne_nil_of_right_ne_nil _ some
  rw [under, assemble, if_neg fun empty => whole empty.2]
  by_cases top : components root = []
  · rw [top, List.nil_append]
    rcases isAnchor_anchor root with none | one | two
    · exact .inl (by rw [none, String.empty_append])
    · exact .inr ⟨"", by rw [one, String.empty_append]⟩
    · exact .inr ⟨"/", by rw [two]; rfl⟩
  · exact .inr ⟨anchor root ++ joinWith "/" (components root), by
      rw [joinWith_append top some]; simp only [String.append_assoc]⟩

end Path

namespace Files

/-- A search answers with paths at which its pattern matches. -/
theorem Disk.isMatchAt_of_find {disk : Disk} {root wanted : String} {excluded : Option String}
    {limit : Option Int} {paths : List String} (tree : disk.tree.IsTree Path.IsName)
    (found : disk.find root wanted excluded limit = .ok paths) :
    ∀ path ∈ paths, Glob.IsMatchAt wanted path := by
  intro path member
  obtain ⟨place, node, names, -, holds, lists, rfl⟩ := exists_lists_of_find tree found member
  have passes := passes_of_lists lists holds (tree.of_at? holds)
  have matched := (Bool.and_eq_true_iff.mp passes.keeps).2
  rw [String.empty_append] at matched
  exact ⟨_, matched, Path.isAt_under root lists.ne_nil⟩

end Files

/-! ## Hosts that open what they find -/

namespace Host

/-- As long as things are fine, a search for a pattern answers with paths at which it matches, and a
document that was loaded is open. -/
structure OpensFound {η : Type} (host : Host η) (fine : η → Prop) : Prop where
  findFiles : ∀ wanted excluded limit, Act.Meets fine (host.findFiles wanted excluded limit)
    (fun paths state => fine state ∧ ∀ pattern, wanted = .text pattern →
      ∀ path ∈ paths, Glob.IsMatchAt pattern path) (fun _ _ => True)
  load : ∀ path, Act.Meets fine (host.load path)
    (fun _ state => fine state ∧ path ∈ host.documents state) (fun _ _ => True)

end Host

/-- What is read off a disk leaves the machine as it was. -/
theorem Machine.meets_ofDisk {α : Type} {answer : Files.Disk → Except Fault α}
    {pre : Machine → Prop} {post : α → Machine → Prop}
    (holds : ∀ {machine found}, pre machine → answer machine.disk = .ok found →
      post found machine) :
    Act.Meets pre (ofDisk answer) post (fun _ _ => True) := by
  intro machine here
  rw [start_ofDisk]
  cases answered : answer machine.disk with
  | error fault => trivial
  | ok found => exact holds here answered

namespace Terminal

open Files

theorem isMatchAt_of_findUnderAll {disk : Disk} {pattern : String} {excluded : Value}
    {roots : List String} {limit : Option Int} {paths : List String}
    (tree : disk.tree.IsTree Path.IsName)
    (found : findUnderAll disk (.text pattern) excluded roots limit = .ok paths) :
    ∀ path ∈ paths, Glob.IsMatchAt pattern path := by
  induction roots generalizing limit paths with
  | nil =>
      cases found
      exact List.forall_mem_nil _
  | cons root roots ih =>
      unfold findUnderAll at found
      split at found
      · cases found
        exact List.forall_mem_nil _
      · obtain ⟨here, searched, found⟩ := exists_of_bind_eq_ok found
        obtain ⟨more, further, found⟩ := exists_of_bind_eq_ok found
        cases found
        obtain ⟨left, -, searched⟩ := exists_of_bind_eq_ok searched
        exact List.forall_mem_append.mpr ⟨Disk.isMatchAt_of_find tree searched, ih further⟩

theorem mem_keepDocument (path text : String) (documents : List (String × String)) :
    path ∈ (keepDocument path text documents).map Prod.fst := by
  induction documents with
  | nil => exact List.mem_cons_self
  | cons document documents ih =>
      rw [keepDocument]
      split
      · exact List.mem_cons_self
      · exact List.mem_cons_of_mem _ ih

/-- As long as its disk holds a tree, a terminal opens what it finds. -/
theorem opensFound (terminal : Terminal) :
    terminal.host.OpensFound fun machine => machine.disk.tree.IsTree Path.IsName := by
  constructor
  · intro wanted excluded limit
    show Act.Meets _ (Machine.ofDisk (findUnderAll · wanted excluded terminal.roots limit)) _ _
    refine Machine.meets_ofDisk fun tree found => ⟨tree, ?_⟩
    rintro pattern rfl
    exact isMatchAt_of_findUnderAll tree found
  · intro path
    have reads : Act.Meets (fun machine => machine.disk.tree.IsTree Path.IsName)
        (Machine.ofDisk (·.readTextLeniently path))
        (fun _ machine => machine.disk.tree.IsTree Path.IsName) (fun _ _ => True) :=
      Machine.meets_ofDisk fun tree _ => tree
    exact reads.bind fun text => meets_modify fun tree => ⟨tree, mem_keepDocument path text _⟩

end Terminal

/-! ## Along a run -/

namespace Bench

variable {η α : Type} {host : Host η} {fine : η → Prop}

/-- A bench on which files were searched for, and things are fine. -/
structure IsFineSearching (fine : η → Prop) (bench : Bench η) : Prop where
  fine : fine bench.host
  searches : ∀ call ∈ bench.calls, call.isSearch = true

/-- If the last thing done was to load what a search for a pattern found, it is open, and the
pattern matches at it. -/
def ShowsLoaded (host : Host η) (bench : Bench η) : Prop :=
  ∀ made pattern excluded limit path,
    bench.calls = made ++ [.findFiles (.text pattern) excluded limit, .load path] →
      path ∈ host.documents bench.host ∧ Glob.IsMatchAt pattern path

theorem showsLoaded_of_searches {bench : Bench η}
    (searches : ∀ call ∈ bench.calls, call.isSearch = true) : ShowsLoaded host bench := by
  intro made pattern excluded limit path same
  rw [same] at searches
  nomatch searches (.load path) (by simp)

/-- A recorded call ends as the act does, and comes last on the record. -/
theorem meets_recorded_last {call : Call} {act : Act η α} {post : α → η → Prop}
    (meets : Act.Meets fine act post (fun _ _ => True)) (made : List Call) :
    Act.Meets (fun bench => fine bench.host ∧ bench.calls = made) (recorded call act)
      (fun answer bench => post answer bench.host ∧ bench.calls = made ++ [call])
      (fun _ _ => True) := by
  rintro bench ⟨fine, rfl⟩
  have ended := meets fine
  rw [start_recorded]
  rcases course : act.start bench.host with ⟨fault | answer, after⟩
  · trivial
  · rw [course] at ended
    exact ⟨ended, rfl⟩

/-- What the search for a source file found is loaded, and then it is open. -/
theorem meets_loadFirst_of_opensFound (opens : host.OpensFound fine) (detector : Detector)
    {made : List Call} (searches : ∀ call ∈ made, call.isSearch = true) :
    Act.Meets (fun bench => fine bench.host ∧ bench.calls = made)
      (Activation.loadFirst (hostOf host) detector) (fun _ => ShowsLoaded host)
      (fun _ _ => True) := by
  unfold Activation.loadFirst
  refine (meets_recorded_last (opens.findFiles _ _ _) made).bind fun paths => ?_
  cases paths with
  | nil =>
      refine meets_pure ?_
      rintro bench ⟨-, same⟩
      exact showsLoaded_of_searches (same ▸ isSearch_concat searches _ _ _)
  | cons path others =>
      have loads : Act.Meets (fun bench => (fine bench.host ∧ ∀ pattern,
            detector.pattern = .text pattern → ∀ found ∈ path :: others,
              Glob.IsMatchAt pattern found) ∧ bench.calls = made ++ [.ofSource detector])
          ((hostOf host).load path) (fun _ => ShowsLoaded host) (fun _ _ => True) := by
        rintro bench ⟨⟨fine, matched⟩, same⟩
        refine (meets_recorded_last (opens.load path) _).weaken ?_ id ⟨fine, same⟩
        rintro _ after ⟨⟨-, opened⟩, same⟩ before pattern excluded limit other again
        rw [same, List.append_assoc] at again
        have last := (List.append_inj' again rfl).2
        simp only [Call.ofSource, List.singleton_append, List.cons.injEq, Call.findFiles.injEq,
          Call.load.injEq, and_true] at last
        obtain ⟨⟨isText, -, -⟩, rfl⟩ := last
        exact ⟨opened, matched pattern isText path List.mem_cons_self⟩
      exact loads.bind fun _ => meets_pure id

theorem contract_of_opensFound (opens : host.OpensFound fine) :
    Activation.Contract (IsFineSearching fine) (ShowsLoaded host) (fun _ _ => True)
      (hostOf host) where
  findFiles wanted excluded limit := by
    rintro bench ⟨fine, searches⟩
    refine (meets_recorded_last (opens.findFiles wanted excluded limit) _).weaken ?_ id ⟨fine, rfl⟩
    rintro paths after ⟨⟨fine, -⟩, same⟩
    exact ⟨fine, same ▸ isSearch_concat searches _ _ _⟩
  loadFirst detector _ := fun ⟨fine, searches⟩ =>
    meets_loadFirst_of_opensFound opens detector searches ⟨fine, rfl⟩
  idle searching := showsLoaded_of_searches searching.searches
  logSearching _ _ searching := ⟨searching.fine, searching.searches⟩
  logWoken _ _ shows := shows

section Activating

variable {detectors : List Detector} {language : Option Value} {bench after : Bench η}

/-- Waking an index without a fault takes texts for patterns. -/
theorem texts_of_activate
    (runs : (Activation.activate (hostOf host) detectors language).start bench = (.ok (), after)) :
    ∀ detector ∈ Activation.relevant detectors language, ∃ pattern,
      detector.pattern = .text pattern := by
  apply (Detector.anyOpen_iff (host.documents bench.host) _).mp
  cases answers : Detector.anyOpen (host.documents bench.host)
      (Activation.relevant detectors language) with
  | ok known => exact ⟨known, rfl⟩
  | error misfit =>
      have documents : (hostOf host).documents bench = host.documents bench.host := rfl
      unfold Activation.activate at runs
      rw [start_bind_of_ok (start_get _), documents] at runs
      dsimp only at runs
      rw [answers] at runs
      nomatch runs

/-- Where a source document is open, waking the index does nothing but log that it is. -/
theorem start_activate_of_anyOpen
    (known : Detector.anyOpen (host.documents bench.host)
      (Activation.relevant detectors language) = .ok true) :
    ∃ line, (Activation.activate (hostOf host) detectors language).start bench =
      (.ok (), { bench with lines := bench.lines ++ [line] }) := by
  have documents : (hostOf host).documents bench = host.documents bench.host := rfl
  unfold Activation.activate
  rw [start_bind_of_ok (start_get _), documents]
  dsimp only
  rw [known]
  exact ⟨_, rfl⟩

/-- An index is woken, from where things are fine, and the last call of the run loads what the
search of a detector in force found. -/
structure LoadsSource (host : Host η) (fine : η → Prop) (detectors : List Detector)
    (language : Option Value) (detector : Detector) (path : String) (woken : Bench η) : Prop where
  relevant : detector ∈ Activation.relevant detectors language
  runs : ∃ start settings, fine start ∧
    (Activation.activate (hostOf host) detectors language).start { host := start, settings } =
      (.ok (), woken)
  ends : ∃ made, woken.calls = made ++ [.ofSource detector, .load path]

theorem LoadsSource.showsLoaded {detector : Detector} {path : String} {woken : Bench η}
    (loads : LoadsSource host fine detectors language detector path woken)
    (opens : host.OpensFound fine) : ShowsLoaded host woken := by
  obtain ⟨start, settings, fine, runs⟩ := loads.runs
  have searching : IsFineSearching _ { host := start, settings : Bench η } :=
    ⟨fine, List.forall_mem_nil _⟩
  have ended := (contract_of_opensFound opens).activate (fun _ => trivial) detectors language
    searching
  rwa [runs] at ended

end Activating

end Bench

/-! ## The result -/

namespace Detector

/-- The extensions that are read off a pattern agree with it just when it spells them: then an open
document is recognised at whatever path with a stem the pattern matches, below any folder. A path
without a stem is never recognised. And on a host that opens what it finds, an index that was woken
with such a pattern is left alone as long as the file that was loaded, if its path has a stem, stays
open, as it is at first. -/
theorem extensions_agree_iff {detector : Detector} {pattern : String}
    (isText : detector.pattern = .text pattern)
    (some : extensionsOfPattern pattern.toList ≠ []) :
    ((∀ relative path documents, Glob.isMatch pattern relative = true →
        Path.HasStem relative → Path.IsAt relative path → path ∈ documents →
          anyOpen documents [detector] = .ok true) ↔
      SpellsExtensions pattern.toList) ∧
    (∀ path, ¬ Path.HasStem path → anyOpen [path] [detector] ≠ .ok true) ∧
    (SpellsExtensions pattern.toList → ∀ (η : Type) (host : Host η) (fine : η → Prop)
      (detectors : List Detector) (language : Option Value) (path : String) (woken : Bench η),
      host.OpensFound fine →
        Bench.LoadsSource host fine detectors language detector path woken →
          Path.HasStem path → path ∈ host.documents woken.host ∧
            ∀ later : Bench η, path ∈ host.documents later.host → ∃ line,
              (Activation.activate (Bench.hostOf host) detectors language).start later =
                (.ok (), { later with lines := later.lines ++ [line] })) := by
  have texts : ∀ other ∈ [detector], ∃ word, other.pattern = .text word :=
    List.forall_mem_singleton.mpr ⟨pattern, isText⟩
  refine ⟨⟨fun recognised => ?_, fun spells => ?_⟩, ?_, ?_⟩
  · refine SelectsExtensions.spells ?_ some
    intro path matched stem
    exact (anyOpen_singleton_iff isText).mp
      (recognised path path [path] matched stem (.inl rfl) List.mem_cons_self)
  · intro relative path documents matched stem at_ opened
    refine anyOpen_of_mem texts List.mem_cons_self isText opened ?_
    rw [at_.extension_eq]
    exact spells.selects relative matched stem
  · intro path none answers
    have known := (anyOpen_singleton_iff isText).mp answers
    rw [Path.extension_of_not_hasStem none] at known
    obtain ⟨letters, same⟩ := exists_of_mem_extensionsOfPattern known
    exact absurd (congrArg String.toList same) (by simp)
  · intro spells η host fine detectors language path woken opens loads stem
    obtain ⟨made, ends⟩ := loads.ends
    rw [Call.ofSource, isText] at ends
    obtain ⟨opened, relative, matched, at_⟩ := loads.showsLoaded opens _ _ _ _ _ ends
    refine ⟨opened, fun later stays => Bench.start_activate_of_anyOpen ?_⟩
    obtain ⟨start, settings, -, runs⟩ := loads.runs
    refine anyOpen_of_mem (Bench.texts_of_activate runs) loads.relevant isText stays ?_
    rw [at_.extension_eq]
    exact spells.selects relative matched (at_.hasStem_iff.mp stem)

/-- A machine with one file in a folder of a project, and the terminal for the project. -/
def machineWith (name : String) : Machine where
  disk := { tree := .folder [("p", .folder [("src", .folder [(name, .file [])])])], current := [] }

def projectTerminal : Terminal where
  roots := ["/p"]
  indexPath := ""
  editorCommand := ""

theorem isTree_machineWith {name : String} (proper : Path.IsName name) :
    (machineWith name).disk.tree.IsTree Path.IsName := by
  apply Files.Node.isTree_singleton (by decide)
  apply Files.Node.isTree_singleton (by decide)
  exact Files.Node.isTree_singleton proper (.file [])

/-- The run that wakes an index with one detector, which is for the configured language. -/
def wakingWith (detector : Detector) (bench : Bench Machine) : Except Fault Unit × Bench Machine :=
  (Activation.activate (Bench.hostOf projectTerminal.host) [detector]
    (some detector.language)).start bench

/-- Once a file with one of two extensions was loaded, the index is left alone. -/
theorem extensions_agree_of_group :
    let scripts : Detector :=
      { language := .text "script", pattern := .text "**/*.\x7bts,js\x7d" }
    let woken := (wakingWith scripts
      { host := machineWith "a.ts", settings := .ok Script.settings }).2
    woken.calls = [.ofSource scripts, .load "/p/src/a.ts"] ∧
      ∃ line, wakingWith scripts woken =
        (.ok (), { woken with lines := woken.lines ++ [line] }) := by
  intro scripts woken
  have calls : woken.calls = [.ofSource scripts, .load "/p/src/a.ts"] := by decide +kernel
  have ends : (wakingWith scripts
      { host := machineWith "a.ts", settings := .ok Script.settings }).1 = .ok () := by
    decide +kernel
  have loads : Bench.LoadsSource projectTerminal.host
      (fun machine => machine.disk.tree.IsTree Path.IsName) [scripts] (some scripts.language)
      scripts "/p/src/a.ts" woken := by
    constructor
    · decide
    · exact ⟨machineWith "a.ts", _, isTree_machineWith (by decide), Prod.ext ends rfl⟩
    · exact ⟨[], calls⟩
  have some : extensionsOfPattern "**/*.\x7bts,js\x7d".toList ≠ [] := by decide +kernel
  have spells : SpellsExtensions "**/*.\x7bts,js\x7d".toList := by decide +kernel
  obtain ⟨opened, stays⟩ := (extensions_agree_iff rfl some).2.2 spells _ _ _ _ _ _ woken
    projectTerminal.opensFound loads (by decide +kernel)
  exact ⟨calls, stays woken opened⟩

/-- The extension of a path has one dot. So a pattern with two in its ending matches at paths that
are not recognised, and the same file is loaded each time. -/
theorem extensions_disagree_of_dots :
    let typings : Detector := { language := .text "script", pattern := .text "**/*.d.ts" }
    let woken := (wakingWith typings
      { host := machineWith "a.d.ts", settings := .ok Script.settings }).2
    extensionsOfPattern "**/*.d.ts".toList = [".d.ts"] ∧
      Glob.isMatch "**/*.d.ts" "a.d.ts" = true ∧ Path.HasStem "a.d.ts" ∧
      anyOpen ["a.d.ts"] [typings] = .ok false ∧
      woken.calls = [.ofSource typings, .load "/p/src/a.d.ts"] ∧
      (wakingWith typings woken).2.calls = woken.calls ++ woken.calls := by
  exact ⟨by decide +kernel, by decide +kernel, by decide +kernel, by decide +kernel,
    by decide +kernel, by decide +kernel⟩

end Detector

end SymbolJump
