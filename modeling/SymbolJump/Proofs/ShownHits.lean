/-
# The hits that a search shows

A search in a terminal goes through the files below its roots and through the lines of each. It
prints the lines that hold the text, and leaves both loops as soon as it has printed as many as the
limit says. What is printed is carried through the loops as the first of the hits that are still to
come, as many as there is room for: this is so for the lines of one file, and then for all files. A
file that cannot be read has no hits, so it neither stops the search nor takes up any room.

The hits themselves are told without the loops: they are the lines of the files found that hold the
text, in the order of the files and then of the lines. A file that is found below two roots counts
twice, so a hit says where its file stands among those found.
-/
import SymbolJump.Proofs.Limits
import SymbolJump.Proofs.Replies

namespace SymbolJump

open Act Files Text

namespace Text

theorem occursIn_iff (needle text : List Char) :
    occursIn needle text = true ↔ needle <:+: text := by
  induction text with
  | nil => rw [occursIn, List.isEmpty_iff, List.infix_nil]
  | cons c rest ih =>
      rw [occursIn, Bool.or_eq_true, List.isPrefixOf_iff_prefix, ih, List.infix_cons_iff]

end Text

theorem pairwise_zipIdx {α : Type} (items : List α) (first : Nat) :
    (items.zipIdx first).Pairwise fun item other => item.2 < other.2 := by
  rw [← List.pairwise_map, List.zipIdx_map_snd]
  exact List.pairwise_lt_range' 1

/-! ## Files that are found -/

namespace Path

/-- A name that a file can have: a component of a path, with no null character in it. -/
def IsFileName (name : String) : Prop :=
  IsName name ∧ '\x00' ∉ name.toList

instance (name : String) : Decidable (IsFileName name) :=
  inferInstanceAs (Decidable (IsName name ∧ '\x00' ∉ name.toList))

end Path

namespace Files.Disk

variable {disk : Disk} {path root wanted : String} {excluded : Option String} {limit : Option Int}
  {paths : List String} {fault : Fault}

/-- The paths that a search answers with hold no null character. -/
theorem holdsNull_of_mem_find (tree : disk.tree.IsTree Path.IsFileName)
    (answers : disk.find root wanted excluded limit = .ok paths) (member : path ∈ paths) :
    holdsNull path = false := by
  have weaker : disk.tree.IsTree Path.IsName := tree.imp fun _ => And.left
  obtain ⟨place, node, names, leads, holds, lists, rfl⟩ :=
    exists_lists_of_find weaker answers member
  have named := lists.named (tree.of_at? holds)
  have whole : ¬ holdsNull root = true := by
    intro null
    rw [locate?, if_pos null] at leads
    nomatch leads
  rw [Path.holdsNull_iff] at whole
  rw [← Bool.not_eq_true, Path.under, Path.holdsNull_assemble (Path.isAnchor_anchor root)
    (Path.isName_of_mem_under fun name among => (named name among).1)]
  rintro ⟨name, among, null⟩
  rcases List.mem_append.mp among with above | below
  · exact whole ⟨name, above, null⟩
  · exact (named name below).2 null

theorem exists_of_answered_error {α : Type} {answer : Except FileError α}
    (whole : holdsNull path = false) (fails : answered path answer = .error fault) :
    ∃ error, fault = .file error := by
  rw [answered, whole] at fails
  cases answer with
  | error failure => exact ⟨failure, (Except.error.inj fails).symm⟩
  | ok found => nomatch fails

/-- Reading a path without null characters fails only as a search passes over. -/
theorem isPassedOver_of_readText (whole : holdsNull path = false)
    (fails : disk.readText path = .error fault) : Terminal.isPassedOver fault = true := by
  unfold readText at fails
  cases reads : disk.read path with
  | error cause =>
      rw [reads] at fails
      obtain rfl := Except.error.inj fails
      obtain ⟨error, rfl⟩ := exists_of_answered_error whole reads
      rfl
  | ok bytes =>
      rw [reads] at fails
      simp only [bind, Except.bind] at fails
      split at fails
      · cases fails
        rfl
      · nomatch fails

end Files.Disk

namespace Terminal

/-! ## Hits -/

/-- A line of one of some files, which a search shows. -/
structure Hit where
  /-- Where the file stands among the files. -/
  file : Nat
  path : String
  number : Nat
  line : String

namespace Hit

/-- What is shown of a hit. -/
def text (hit : Hit) : String :=
  hit.path ++ ":" ++ toString hit.number ++ ": " ++ trim hit.line

/-- A hit is of an earlier file than another, or an earlier line of the same one. -/
def Before (hit other : Hit) : Prop :=
  hit.file < other.file ∨ hit.file = other.file ∧ hit.number < other.number

end Hit

/-- A line of one of some files holds a text. The file can be read, and the lines are counted from
one. -/
structure IsHit (disk : Disk) (text : String) (paths : List String) (hit : Hit) : Prop where
  stands : paths[hit.file]? = some hit.path
  reads : ∃ content, disk.readText hit.path = .ok content ∧
    1 ≤ hit.number ∧ (lines content)[hit.number - 1]? = some hit.line
  holds : text.toList <:+: hit.line.toList

/-- All hits in some files, in the order of the files and then of the lines. -/
structure AreHits (disk : Disk) (text : String) (paths : List String) (hits : List Hit) : Prop where
  ordered : hits.Pairwise Hit.Before
  complete : ∀ hit, hit ∈ hits ↔ IsHit disk text paths hit

theorem Hit.Before.asymm {hit other : Hit} (before : hit.Before other) : ¬ other.Before hit := by
  unfold Hit.Before at *
  omega

theorem AreHits.unique {disk : Disk} {text : String} {paths : List String} {hits others : List Hit}
    (all : AreHits disk text paths hits) (also : AreHits disk text paths others) :
    hits = others := by
  have distinct {hits : List Hit} (ordered : hits.Pairwise Hit.Before) : hits.Nodup := by
    apply ordered.imp
    rintro hit _ before rfl
    exact before.asymm before
  have perm : hits.Perm others := by
    rw [List.perm_ext_iff_of_nodup (distinct all.ordered) (distinct also.ordered)]
    exact fun hit => (all.complete hit).trans (also.complete hit).symm
  apply perm.eq_of_pairwise _ all.ordered also.ordered
  exact fun hit other _ _ before after => absurd after before.asymm

/-- The hits among the numbered lines of a file. -/
def hitsAmong (text : String) (file : String × Nat) (numbered : List (String × Nat)) : List Hit :=
  (numbered.filter fun line => occursIn text.toList line.1.toList).map fun line =>
    { file := file.2, path := file.1, number := line.2, line := line.1 }

/-- The hits in a file. -/
def hitsIn (disk : Disk) (text : String) (file : String × Nat) : List Hit :=
  match disk.readText file.1 with
  | .error _ => []
  | .ok content => hitsAmong text file ((lines content).zipIdx 1)

section Hits

variable {disk : Disk} {text : String} {file : String × Nat} {numbered : List (String × Nat)}
  {paths : List String} {hit : Hit}

theorem hitsAmong_cons_of_holds {line : String} {number : Nat}
    (holds : occursIn text.toList line.toList = true) :
    hitsAmong text file ((line, number) :: numbered) =
      { file := file.2, path := file.1, number, line } :: hitsAmong text file numbered := by
  simp [hitsAmong, holds]

theorem hitsAmong_cons_of_not {line : String} {number : Nat}
    (lacks : ¬ occursIn text.toList line.toList = true) :
    hitsAmong text file ((line, number) :: numbered) = hitsAmong text file numbered := by
  simp [hitsAmong, lacks]

theorem mem_hitsAmong_iff : hit ∈ hitsAmong text file numbered ↔
    hit.file = file.2 ∧ hit.path = file.1 ∧ (hit.line, hit.number) ∈ numbered ∧
      text.toList <:+: hit.line.toList := by
  rw [hitsAmong, List.mem_map]
  simp only [List.mem_filter, occursIn_iff]
  constructor
  · rintro ⟨line, ⟨member, holds⟩, rfl⟩
    exact ⟨rfl, rfl, member, holds⟩
  · obtain ⟨index, path, number, line⟩ := hit
    rintro ⟨rfl, rfl, member, holds⟩
    exact ⟨_, ⟨member, holds⟩, rfl⟩

theorem mem_hitsIn_iff : hit ∈ hitsIn disk text file ↔
    hit.file = file.2 ∧ hit.path = file.1 ∧
      (∃ content, disk.readText hit.path = .ok content ∧
        1 ≤ hit.number ∧ (lines content)[hit.number - 1]? = some hit.line) ∧
      text.toList <:+: hit.line.toList := by
  rw [hitsIn]
  constructor
  · intro member
    split at member
    · nomatch member
    · next content reads =>
      obtain ⟨index, path, among, holds⟩ := mem_hitsAmong_iff.mp member
      rw [← path] at reads
      exact ⟨index, path, ⟨content, reads, List.mem_zipIdx_iff_le_and_getElem?_sub.mp among⟩, holds⟩
  · rintro ⟨index, path, ⟨content, reads, among⟩, holds⟩
    rw [path] at reads
    rw [reads]
    exact mem_hitsAmong_iff.mpr
      ⟨index, path, List.mem_zipIdx_iff_le_and_getElem?_sub.mpr among, holds⟩

theorem pairwise_hitsIn : (hitsIn disk text file).Pairwise Hit.Before := by
  rw [hitsIn]
  split
  · exact .nil
  · rw [hitsAmong, List.pairwise_map]
    apply List.Pairwise.filter
    apply (pairwise_zipIdx _ _).imp
    intro line other less
    exact .inr ⟨rfl, less⟩

/-- The hits in the single files, one after the other, are all hits in their order. -/
theorem areHits_flatMap (disk : Disk) (text : String) (paths : List String) :
    AreHits disk text paths (paths.zipIdx.flatMap (hitsIn disk text)) := by
  constructor
  · rw [List.pairwise_flatMap]
    refine ⟨fun file _ => pairwise_hitsIn, (pairwise_zipIdx paths 0).imp ?_⟩
    intro file other less hit member later also
    have here := (mem_hitsIn_iff.mp member).1
    have there := (mem_hitsIn_iff.mp also).1
    exact .inl (by omega)
  · intro hit
    simp only [List.mem_flatMap, List.mem_zipIdx_iff_getElem?, mem_hitsIn_iff]
    constructor
    · rintro ⟨file, stands, index, path, reads, holds⟩
      exact ⟨by rw [index, path, stands], reads, holds⟩
    · rintro ⟨stands, reads, holds⟩
      exact ⟨(hit.path, hit.file), stands, rfl, rfl, reads, holds⟩

end Hits

/-! ## Printing -/

section Printing

variable {text : String} {shown : Nat}

/-- A machine that printed some hits. -/
def shows (machine : Machine) (hits : List Hit) : Machine :=
  { machine with output := machine.output ++ String.join (hits.map fun hit => hit.text ++ "\n") }

@[simp]
theorem shows_nil (machine : Machine) : shows machine [] = machine := by
  simp [shows]

theorem shows_append (machine : Machine) (hits more : List Hit) :
    shows machine (hits ++ more) = shows (shows machine hits) more := by
  simp [shows, String.join_append, String.append_assoc]

theorem start_printLine (hit : Hit) (machine : Machine) :
    (Machine.printLine (hitText hit.path hit.number hit.line)).start machine =
      (.ok (), shows machine [hit]) := by
  simp [Machine.printLine, start_print, shows, Hit.text, hitText]

/-- The lines of a file are gone through until there is no more room, and the first hits among them
are printed. -/
theorem start_showLines (text : String) (file : String × Nat) (room : shown < searchLimit)
    (numbered : List (String × Nat)) (machine : Machine) :
    (showLines text file.1 numbered shown).start machine =
      (.ok (min searchLimit (shown + (hitsAmong text file numbered).length)),
        shows machine ((hitsAmong text file numbered).take (searchLimit - shown))) := by
  induction numbered generalizing shown machine with
  | nil => simp [showLines, hitsAmong, room.le]
  | cons line rest ih =>
      obtain ⟨line, number⟩ := line
      rw [showLines]
      by_cases holds : occursIn text.toList line.toList = true
      · have prints := start_printLine ⟨file.2, file.1, number, line⟩ machine
        obtain ⟨left, more⟩ : ∃ left, searchLimit - shown = left + 1 :=
          ⟨searchLimit - (shown + 1), by omega⟩
        rw [if_pos holds, hitsAmong_cons_of_holds holds, List.length_cons, more,
          List.take_succ_cons, ← List.singleton_append, shows_append, start_bind_of_ok prints]
        by_cases full : searchLimit ≤ shown + 1
        · have last : left = 0 := by omega
          have count : min searchLimit (shown + ((hitsAmong text file rest).length + 1)) =
              shown + 1 := by omega
          rw [if_pos full, last, List.take_zero, shows_nil, count]
          rfl
        · have fewer : searchLimit - (shown + 1) = left := by omega
          rw [if_neg full, ih (by omega), fewer, Nat.add_assoc, Nat.add_comm 1]
      · rw [if_neg holds, hitsAmong_cons_of_not holds, ih room]

/-- The files are gone through until there is no more room, and the first hits in them are
printed. -/
theorem start_showFiles {paths : List String}
    (whole : ∀ path ∈ paths, Disk.holdsNull path = false) (first : Nat)
    (room : shown < searchLimit) (machine : Machine) :
    (showFiles text paths shown).start machine =
      (.ok (), shows machine (((paths.zipIdx first).flatMap (hitsIn machine.disk text)).take
        (searchLimit - shown))) := by
  induction paths generalizing first shown machine with
  | nil => simp [showFiles]
  | cons path rest ih =>
      obtain ⟨here, later⟩ := List.forall_mem_cons.mp whole
      rw [showFiles, start_bind_of_ok (start_get machine), List.zipIdx_cons, List.flatMap_cons]
      cases reads : machine.disk.readText path with
      | error fault =>
          have nothing : hitsIn machine.disk text (path, first) = [] := by rw [hitsIn, reads]
          simp only [Disk.isPassedOver_of_readText here reads, if_true]
          rw [nothing, List.nil_append, ih later (first + 1) room]
      | ok content =>
          have prints := start_showLines text (path, first) room ((lines content).zipIdx 1) machine
          have among : hitsAmong text (path, first) ((lines content).zipIdx 1) =
              hitsIn machine.disk text (path, first) := by rw [hitsIn, reads]
          rw [among] at prints
          dsimp only
          rw [start_bind_of_ok prints, List.take_append, shows_append]
          generalize hitsIn machine.disk text (path, first) = hits
          by_cases full : searchLimit ≤ shown + hits.length
          · have left : searchLimit - shown - hits.length = 0 := by omega
            rw [if_pos (by omega), left, List.take_zero, shows_nil]
            rfl
          · have count : min searchLimit (shown + hits.length) = shown + hits.length := by omega
            rw [if_neg (by omega), count, ih later (first + 1) (by omega), Nat.sub_add_eq]
            rfl

end Printing

/-! ## Searching all roots -/

section Roots

variable {disk : Disk} {pattern root : String} {roots : List String} {found : List (List String)}
  {fault : Fault}

theorem findUnder_text_null (disk : Disk) (root pattern : String) :
    findUnder disk root (.text pattern) .null none = disk.find root pattern none none := by
  unfold findUnder exclusion Disk.find Disk.findBy Disk.hasEntries
  cases disk.locate? root <;> rfl

/-- Without a limit the roots are searched one after the other, as long as no search fails. -/
theorem findUnderAll_append_none {wanted excluded : Value} (searched : List.Forall₂
      (fun root found => findUnder disk root wanted excluded none = .ok found) roots found)
    (more : List String) :
    findUnderAll disk wanted excluded (roots ++ more) none =
      (findUnderAll disk wanted excluded more none).map (found.flatten ++ ·) := by
  induction searched with
  | nil =>
      rw [List.nil_append]
      cases findUnderAll disk wanted excluded more none <;> rfl
  | cons here _ ih =>
      rw [List.cons_append, findUnderAll, here]
      simp only [Option.map_none, Option.getD_none, Bool.false_eq_true, if_false, bind,
        Except.bind, ih]
      cases findUnderAll disk wanted excluded more none with
      | error fault => rfl
      | ok rest => simp [Except.map, pure, Except.pure]

theorem findUnderAll_of_fails_none {wanted excluded : Value}
    (fails : findUnder disk root wanted excluded none = .error fault) (roots : List String) :
    findUnderAll disk wanted excluded (root :: roots) none = .error fault := by
  rw [findUnderAll, fails]
  rfl

theorem holdsNull_of_searched (tree : disk.tree.IsTree Path.IsFileName)
    (searched : List.Forall₂
      (fun root found => disk.find root pattern none none = .ok found) roots found) :
    ∀ path ∈ found.flatten, Disk.holdsNull path = false := by
  induction searched with
  | nil => exact List.forall_mem_nil _
  | cons here _ ih =>
      rw [List.flatten_cons]
      exact List.forall_mem_append.mpr ⟨fun _ => Disk.holdsNull_of_mem_find tree here, ih⟩

end Roots

/-- The files that a search goes through: those that are found below the roots, root by root. -/
def Finds (disk : Disk) (roots : List String) (paths : List String) : Prop :=
  ∃ found, paths = found.flatten ∧
    List.Forall₂ (fun root found => disk.find root "**/*" none none = .ok found) roots found

/-- After its header, a search shows the first fifty of all hits in the files that are found below
the roots, and nothing else. When a root cannot be searched, it fails after the header. -/
theorem search_shows_first_hits (terminal : Terminal) (machine : Machine) (text : String)
    (tree : machine.disk.tree.IsTree Path.IsFileName) :
    let header := "Searching workspace for \"" ++ text ++ "\"\n"
    let begun := { machine with output := machine.output ++ header }
    let course := (terminal.host.openSearch text).start machine
    (∀ paths, Finds machine.disk terminal.roots paths →
      (∃ hits, AreHits machine.disk text paths hits) ∧
        ∀ hits, AreHits machine.disk text paths hits →
          course = (.ok (), shows begun (hits.take 50))) ∧
    ∀ before root after paths fault, terminal.roots = before ++ root :: after →
      Finds machine.disk before paths → machine.disk.find root "**/*" none none = .error fault →
      course = (.error fault, begun) := by
  intro header begun course
  have prints : (Machine.printLine ("Searching workspace for \"" ++ text ++ "\"")).start machine =
      (.ok (), begun) := by
    simp [Machine.printLine, start_print, begun, header, String.append_assoc]
  have follows : course = ((findFiles terminal (.text "**/*") .null none) >>=
      fun paths => showFiles text paths 0).start begun := start_bind_of_ok prints _
  have finds : (findFiles terminal (.text "**/*") .null none).start begun =
      (findUnderAll machine.disk (.text "**/*") .null terminal.roots none, begun) := rfl
  have under {roots : List String} {found : List (List String)}
      (searched : List.Forall₂
        (fun root found => machine.disk.find root "**/*" none none = .ok found) roots found) :
      List.Forall₂ (fun root found =>
        findUnder machine.disk root (.text "**/*") .null none = .ok found) roots found :=
    searched.imp fun root found answers => (findUnder_text_null _ _ _).trans answers
  constructor
  · rintro paths ⟨found, rfl, searched⟩
    rw [← List.append_nil terminal.roots, findUnderAll_append_none (under searched)] at finds
    simp only [findUnderAll, Except.map, List.append_nil] at finds
    have all := areHits_flatMap machine.disk text found.flatten
    refine ⟨⟨_, all⟩, fun hits also => ?_⟩
    rw [also.unique all, follows, start_bind_of_ok finds]
    exact start_showFiles (holdsNull_of_searched tree searched) 0 (by decide) begun
  · rintro before root after paths fault roots ⟨found, rfl, searched⟩ fails
    rw [← findUnder_text_null] at fails
    rw [roots, findUnderAll_append_none (under searched), findUnderAll_of_fails_none fails] at finds
    rw [follows]
    exact start_bind_of_error finds _

/-- A disk of three folders with one file in each, which have forty-nine lines, no text and two
lines. -/
def shelvesDisk : Disk where
  tree :=
    let lines (count : Nat) : Node := .file (List.replicate count [0x67, 0x0a]).flatten
    .folder [("a", .folder [("x", lines 49)]), ("b", .folder [("y", .file [0xff])]),
      ("c", .folder [("z", lines 2)])]
  current := []

/-- The last hit that is shown is the first of its file, after a file that is no text. -/
theorem search_shows_first_hits_of_shelves :
    let terminal : Terminal :=
      { roots := ["/a", "/b", "/c"], indexPath := "/index.json", editorCommand := "" }
    let header := "Searching workspace for \"g\"\n"
    let course := (terminal.host.openSearch "g").start { disk := shelvesDisk }
    Finds shelvesDisk terminal.roots ["/a/x", "/b/y", "/c/z"] ∧
      (∃ hits, AreHits shelvesDisk "g" ["/a/x", "/b/y", "/c/z"] hits ∧
        course = (.ok (), shows { disk := shelvesDisk, output := header } (hits.take 50))) ∧
      course.2.output = header ++
        String.join ((List.range 49).map fun n => "/a/x:" ++ toString (n + 1) ++ ": g\n") ++
        "/c/z:1: g\n" := by
  intro terminal header course
  have tree : shelvesDisk.tree.IsTree Path.IsFileName := by
    have shelf (name : String) (bytes : List UInt8) (named : Path.IsFileName name) :
        Node.IsTree Path.IsFileName (.folder [(name, .file bytes)]) :=
      Node.isTree_singleton named (.file bytes)
    apply Node.IsTree.folder (by decide) (by decide)
    simp only [List.forall_mem_cons]
    exact ⟨shelf "x" _ (by decide), shelf "y" _ (by decide), shelf "z" _ (by decide),
      List.forall_mem_nil _⟩
  have first : shelvesDisk.find "/a" "**/*" none none = .ok ["/a/x"] := by decide +kernel
  have second : shelvesDisk.find "/b" "**/*" none none = .ok ["/b/y"] := by decide +kernel
  have third : shelvesDisk.find "/c" "**/*" none none = .ok ["/c/z"] := by decide +kernel
  have finds : Finds shelvesDisk terminal.roots ["/a/x", "/b/y", "/c/z"] :=
    ⟨[["/a/x"], ["/b/y"], ["/c/z"]], rfl, .cons first (.cons second (.cons third .nil))⟩
  obtain ⟨⟨hits, all⟩, shows⟩ :=
    (search_shows_first_hits terminal { disk := shelvesDisk } "g" tree).1 _ finds
  refine ⟨finds, ⟨hits, all, shows hits all⟩, ?_⟩
  decide +kernel

end Terminal

end SymbolJump
