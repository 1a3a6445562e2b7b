/-
# What a search finds

The listing of a folder tells entry by entry what a search finds: in the order of their names, the
files of the folder that are kept, and then what is found in its folders that are entered. From this
both halves follow by induction on the tree. A search finds a path exactly when its names lead to a
file through folders that are entered, and of two paths found the one comes first that stands
higher up or has the earlier name where they part.
-/
import SymbolJump.Proofs.Listings
import SymbolJump.Proofs.Patterns
import SymbolJump.Proofs.Spelling
import SymbolJump.Proofs.Trees

namespace SymbolJump

open Text

namespace Path

/-- The path of names below a root, as the root is spelled. -/
def under (root : String) (names : List String) : String :=
  assemble (anchor root) (components root ++ names)

/-- The names of a path behind those of a root. -/
def namesBelow (root path : String) : List String :=
  (components path).drop (components root).length

instance (name : String) : Decidable (IsName name) :=
  decidable_of_iff (name ≠ "" ∧ name ≠ "." ∧ '/' ∉ name.toList)
    ⟨fun ⟨filled, other, whole⟩ => ⟨filled, other, whole⟩,
      fun ⟨filled, other, whole⟩ => ⟨filled, other, whole⟩⟩

/-- A name without line breaks. -/
def IsOneLineName (name : String) : Prop :=
  IsName name ∧ Glob.IsOneLine name.toList

instance (name : String) : Decidable (IsOneLineName name) :=
  inferInstanceAs (Decidable (IsName name ∧ '\n' ∉ name.toList))

variable {root : String} {names : List String}

theorem isName_of_mem_under (proper : ∀ name ∈ names, IsName name) :
    ∀ name ∈ components root ++ names, IsName name :=
  List.forall_mem_append.mpr ⟨fun _ => isName_of_mem_components, proper⟩

theorem namesBelow_under (proper : ∀ name ∈ names, IsName name) :
    namesBelow root (under root names) = names := by
  rw [namesBelow, under, components_assemble (isAnchor_anchor root) (isName_of_mem_under proper),
    List.drop_left]

theorem join_tidy (root path : String) : join (tidy root) path = under root (components path) := by
  rw [join, anchor_tidy, components_tidy, under]

theorem assemble_of_ne_nil (some : names ≠ []) : assemble "" names = joinWith "/" names := by
  rw [assemble, if_neg fun empty => some empty.2, String.empty_append]

theorem components_joinWith (some : names ≠ []) (proper : ∀ name ∈ names, IsName name) :
    components (joinWith "/" names) = names := by
  rw [← assemble_of_ne_nil some, components_assemble (.inl rfl) proper]

theorem joinWith_ne_empty (some : names ≠ []) (proper : ∀ name ∈ names, IsName name) :
    joinWith "/" names ≠ "" := by
  rw [← assemble_of_ne_nil some]
  exact assemble_ne_empty proper

end Path

namespace Text

theorem joinWith_cons (separator name : String) {names : List String} (some : names ≠ []) :
    joinWith separator (name :: names) = name ++ separator ++ joinWith separator names := by
  cases names with
  | nil => exact absurd rfl some
  | cons next names => rfl

end Text

namespace Files

/-- A tree as a file system keeps it: no folder has a name twice, and each name is one. -/
inductive Node.IsTree (isName : String → Prop) : Node → Prop
  | file (bytes : List UInt8) : IsTree isName (.file bytes)
  | link (target : String) : IsTree isName (.link target)
  | folder {entries : List (String × Node)} (distinct : (entries.map Prod.fst).Nodup)
      (named : ∀ entry ∈ entries, isName entry.1)
      (inside : ∀ entry ∈ entries, IsTree isName entry.2) : IsTree isName (.folder entries)

theorem Node.IsTree.imp {isName also : String → Prop} {node : Node} (tree : node.IsTree isName)
    (weaker : ∀ name, isName name → also name) : node.IsTree also := by
  induction tree with
  | file bytes => exact .file bytes
  | link target => exact .link target
  | folder distinct named _ ih =>
      exact .folder distinct (fun entry member => weaker _ (named entry member)) ih

theorem Node.isTree_singleton {isName : String → Prop} {name : String} {node : Node}
    (named : isName name) (tree : node.IsTree isName) : IsTree isName (.folder [(name, node)]) :=
  .folder (List.nodup_singleton name) (List.forall_mem_singleton.mpr named)
    (List.forall_mem_singleton.mpr tree)

theorem Node.IsTree.of_at? {isName : String → Prop} {root node : Node} {place : Place}
    (tree : root.IsTree isName) (there : root.at? place = some node) : node.IsTree isName := by
  induction place generalizing root with
  | nil =>
      rw [Node.at?_nil] at there
      cases there
      exact tree
  | cons name place ih =>
      cases tree with
      | file | link => nomatch there
      | folder distinct named inside =>
          rw [Node.at?_folder_cons] at there
          obtain ⟨child, found, there⟩ := Option.bind_eq_some_iff.mp there
          exact ih (inside _ ((lookup_eq_some_iff_mem distinct).mp found)) there

/-- A name in a folder is that of a file: of an entry that is neither a folder nor a link to
one. -/
def IsFile (root : Node) (folder : Place) (name : String) : Prop :=
  (∃ bytes, root.at? (folder ++ [name]) = some (.file bytes)) ∨
    (∃ target, root.at? (folder ++ [name]) = some (.link target)) ∧
      leadsToFolder root folder name = false

/-- Names come before others in a search: a file before what is in the folders beside it, and else
by the names where they part. -/
inductive Precedes : List String → List String → Prop
  | files {name other : String} (less : name < other) : Precedes [name] [other]
  | file_folder {name folder : String} {inside : List String} (deeper : inside ≠ []) :
      Precedes [name] (folder :: inside)
  | folders {folder other : String} {inside others : List String} (deeper : inside ≠ [])
      (also : others ≠ []) (less : folder < other) : Precedes (folder :: inside) (other :: others)
  | inside {folder : String} {inside others : List String} (later : Precedes inside others) :
      Precedes (folder :: inside) (folder :: others)

theorem Precedes.irrefl {names : List String} : ¬ Precedes names names := by
  intro precedes
  induction names with
  | nil => nomatch precedes
  | cons name names ih =>
      cases precedes with
      | files less => exact absurd less (lt_irrefl name)
      | file_folder deeper => exact deeper rfl
      | folders _ _ less => exact absurd less (lt_irrefl name)
      | inside later => exact ih later

/-- A search of a folder lists a path below it: that of a file which is kept, through folders that
are entered. -/
inductive Lists (root : Node) (filter : Filter) : Place → String → Node → List String → Prop
  | own {place : Place} {path : String} {entries : List (String × Node)} {entry : String × Node}
      (member : entry ∈ entries) (listed : isListed root place entry = true)
      (keeps : filter.keeps (path ++ entry.1) = true) :
      Lists root filter place path (.folder entries) [entry.1]
  | inside {place : Place} {path : String} {entries inner : List (String × Node)} {name : String}
      {names : List String} (member : (name, .folder inner) ∈ entries)
      (enters : filter.enters (path ++ name) = true)
      (later : Lists root filter (place ++ [name]) (path ++ name ++ "/") (.folder inner) names) :
      Lists root filter place path (.folder entries) (name :: names)

section Lists

variable {root node : Node} {filter : Filter} {place : Place} {path : String}
  {names : List String} {isName : String → Prop}

theorem Lists.ne_nil (lists : Lists root filter place path node names) : names ≠ [] := by
  cases lists <;> simp

theorem Lists.named (lists : Lists root filter place path node names)
    (tree : node.IsTree isName) : ∀ name ∈ names, isName name := by
  induction lists with
  | own member =>
      cases tree with
      | folder _ named _ => exact List.forall_mem_singleton.mpr (named _ member)
  | inside member _ _ ih =>
      cases tree with
      | folder _ named inside =>
          exact List.forall_mem_cons.mpr ⟨named _ member, ih (inside _ member)⟩

theorem append_joinWith_cons (path name : String) (some : names ≠ []) :
    path ++ joinWith "/" (name :: names) = path ++ name ++ "/" ++ joinWith "/" names := by
  simp only [joinWith_cons "/" name some, String.append_assoc]

/-- A search finds the paths that it lists. -/
theorem mem_searchNode_iff (tree : node.IsTree isName) {found : String} :
    found ∈ searchNode root filter place path node ↔
      ∃ names, Lists root filter place path node names ∧ found = path ++ joinWith "/" names := by
  induction tree generalizing place path with
  | file bytes =>
      simp only [searchNode, List.not_mem_nil, false_iff]
      rintro ⟨names, ⟨⟩, -⟩
  | link target =>
      simp only [searchNode, List.not_mem_nil, false_iff]
      rintro ⟨names, ⟨⟩, -⟩
  | folder distinct named inside ih =>
      rw [searchNode_folder, List.mem_append, List.mem_filterMap, List.mem_flatMap]
      constructor
      · rintro (⟨entry, member, own⟩ | ⟨⟨name, node⟩, member, there⟩)
        · obtain ⟨listed, keeps, rfl⟩ := own?_contributionOf.mp own
          exact ⟨_, .own (mem_sortByName.mp member) listed keeps, rfl⟩
        · obtain ⟨inner, same, enters, deeper⟩ := mem_inside_contributionOf.mp there
          cases same
          have among := mem_sortByName.mp member
          obtain ⟨names, lists, rfl⟩ := (ih _ among).mp deeper
          exact ⟨_, .inside among enters lists, (append_joinWith_cons path name lists.ne_nil).symm⟩
      · rintro ⟨names, lists, rfl⟩
        cases lists with
        | @own _ _ _ entry member listed keeps =>
            exact .inl ⟨entry, mem_sortByName.mpr member,
              own?_contributionOf.mpr ⟨listed, keeps, rfl⟩⟩
        | @inside _ _ _ inner name names member enters later =>
            refine .inr ⟨_, mem_sortByName.mpr member, ?_⟩
            apply mem_inside_contributionOf.mpr
            refine ⟨inner, rfl, enters, (ih _ member).mpr ⟨names, later, ?_⟩⟩
            exact append_joinWith_cons path name later.ne_nil

/-- A path found in a folder is listed below it. -/
theorem exists_lists_of_mem_inside {entries : List (String × Node)} {entry : String × Node}
    (inside : ∀ entry ∈ entries, entry.2.IsTree isName) (member : entry ∈ entries)
    {found : String} (there : found ∈ (contributionOf root filter place path entry).inside) :
    ∃ names, names ≠ [] ∧ Lists root filter place path (.folder entries) (entry.1 :: names) ∧
      found = path ++ joinWith "/" (entry.1 :: names) := by
  obtain ⟨name, node⟩ := entry
  obtain ⟨inner, same, enters, deeper⟩ := mem_inside_contributionOf.mp there
  cases same
  obtain ⟨names, lists, rfl⟩ := (mem_searchNode_iff (inside _ member)).mp deeper
  exact ⟨names, lists.ne_nil, .inside member enters lists,
    (append_joinWith_cons path name lists.ne_nil).symm⟩

/-- A path is listed before another one. -/
def ListsBefore (root : Node) (filter : Filter) (place : Place) (path : String) (node : Node)
    (first second : String) : Prop :=
  ∃ names others, Lists root filter place path node names ∧
    Lists root filter place path node others ∧ first = path ++ joinWith "/" names ∧
    second = path ++ joinWith "/" others ∧ Precedes names others

theorem ListsBefore.inside {entries inner : List (String × Node)} {name first second : String}
    (member : (name, .folder inner) ∈ entries) (enters : filter.enters (path ++ name) = true)
    (before : ListsBefore root filter (place ++ [name]) (path ++ name ++ "/") (.folder inner)
      first second) : ListsBefore root filter place path (.folder entries) first second := by
  obtain ⟨names, others, lists, also, rfl, rfl, precedes⟩ := before
  exact ⟨name :: names, name :: others, .inside member enters lists, .inside member enters also,
    (append_joinWith_cons path name lists.ne_nil).symm,
    (append_joinWith_cons path name also.ne_nil).symm, .inside precedes⟩

/-- A search finds paths in the order of their names. -/
theorem pairwise_searchNode (tree : node.IsTree isName) :
    (searchNode root filter place path node).Pairwise
      (ListsBefore root filter place path node) := by
  induction tree generalizing place path with
  | file bytes => exact .nil
  | link target => exact .nil
  | @folder entries distinct named inside ih =>
      have ascending := pairwise_mergeSort distinct
      rw [searchNode_folder, List.pairwise_append, List.pairwise_filterMap, List.pairwise_flatMap]
      refine ⟨?files, ⟨?within, ?between⟩, ?across⟩
      case files =>
        apply ascending.imp_of_mem
        intro entry other member also less found own next last
        obtain ⟨listed, keeps, rfl⟩ := own?_contributionOf.mp own
        obtain ⟨listed', keeps', rfl⟩ := own?_contributionOf.mp last
        exact ⟨_, _, .own (mem_sortByName.mp member) listed keeps,
          .own (mem_sortByName.mp also) listed' keeps', rfl, rfl, .files less⟩
      case within =>
        rintro ⟨name, node⟩ member
        have among := mem_sortByName.mp member
        cases node with
        | folder inner =>
            simp only [contributionOf]
            split
            · next enters => exact (ih _ among).imp (.inside among enters)
            · exact .nil
        | _ =>
            simp only [contributionOf]
            split <;> exact .nil
      case between =>
        apply ascending.imp_of_mem
        intro entry other member also less found there next beyond
        obtain ⟨names, deeper, lists, rfl⟩ :=
          exists_lists_of_mem_inside inside (mem_sortByName.mp member) there
        obtain ⟨others, further, lists', rfl⟩ :=
          exists_lists_of_mem_inside inside (mem_sortByName.mp also) beyond
        exact ⟨_, _, lists, lists', rfl, rfl, .folders deeper further less⟩
      case across =>
        intro found own next beyond
        obtain ⟨entry, member, own⟩ := List.mem_filterMap.mp own
        obtain ⟨listed, keeps, rfl⟩ := own?_contributionOf.mp own
        obtain ⟨other, also, there⟩ := List.mem_flatMap.mp beyond
        obtain ⟨names, deeper, lists, rfl⟩ :=
          exists_lists_of_mem_inside inside (mem_sortByName.mp also) there
        exact ⟨_, _, .own (mem_sortByName.mp member) listed keeps, lists, rfl, rfl,
          .file_folder deeper⟩

theorem at?_concat_iff {entries : List (String × Node)} {name : String} {child : Node}
    (here : root.at? place = some (.folder entries)) (distinct : (entries.map Prod.fst).Nodup) :
    root.at? (place ++ [name]) = some child ↔ (name, child) ∈ entries := by
  rw [Node.at?_append, here, Option.bind_some, Node.at?_folder_cons,
    ← lookup_eq_some_iff_mem distinct]
  cases entries.lookup name <;> simp

theorem isFile_iff {entries : List (String × Node)} {name : String}
    (here : root.at? place = some (.folder entries)) (distinct : (entries.map Prod.fst).Nodup) :
    IsFile root place name ↔
      ∃ child, (name, child) ∈ entries ∧ isListed root place (name, child) = true := by
  simp only [IsFile, at?_concat_iff here distinct]
  constructor
  · rintro (⟨bytes, member⟩ | ⟨⟨target, member⟩, astray⟩)
    · exact ⟨_, member, rfl⟩
    · exact ⟨_, member, by simp [isListed, astray]⟩
  · rintro ⟨child, member, listed⟩
    cases child with
    | file bytes => exact .inl ⟨bytes, member⟩
    | folder inner => simp [isListed] at listed
    | link target => exact .inr ⟨⟨target, member⟩, by simpa [isListed] using listed⟩

theorem IsFile.hasFolder {name : String} (file : IsFile root place name) :
    root.HasFolder place := by
  obtain ⟨child, stands⟩ : ∃ child, root.at? (place ++ [name]) = some child := by
    rcases file with ⟨bytes, stands⟩ | ⟨⟨target, stands⟩, -⟩
    · exact ⟨_, stands⟩
    · exact ⟨_, stands⟩
  rw [Node.at?_append] at stands
  obtain ⟨node, there, inside⟩ := Option.bind_eq_some_iff.mp stands
  cases node with
  | folder entries => exact ⟨entries, there⟩
  | _ => nomatch inside

/-- The names of a path lead to a file that is kept, and each folder on the way is entered. -/
structure Passes (root : Node) (filter : Filter) (place : Place) (path : String)
    (names : List String) : Prop where
  file : ∃ folder name, names = folder ++ [name] ∧ IsFile root (place ++ folder) name
  keeps : filter.keeps (path ++ joinWith "/" names) = true
  enters : ∀ outer inner, names = outer ++ inner → outer ≠ [] → inner ≠ [] →
    filter.enters (path ++ joinWith "/" outer) = true

theorem passes_of_lists (lists : Lists root filter place path node names)
    (here : root.at? place = some node) (tree : node.IsTree isName) :
    Passes root filter place path names := by
  induction lists with
  | @own place path entries entry member listed keeps =>
      cases tree with
      | folder distinct named inside =>
          constructor
          · exact ⟨[], entry.1, rfl, by
              rw [List.append_nil, isFile_iff here distinct]
              exact ⟨entry.2, member, listed⟩⟩
          · exact keeps
          · intro outer inner cut some more
            rcases List.append_eq_singleton_iff.mp cut.symm with ⟨none, -⟩ | ⟨-, none⟩
            · exact absurd none some
            · exact absurd none more
  | @inside place path entries inner name names member enters later ih =>
      cases tree with
      | folder distinct named inside =>
          obtain ⟨⟨folder, last, rfl, file⟩, keeps, further⟩ :=
            ih ((at?_concat_iff here distinct).mpr member) (inside _ member)
          constructor
          · exact ⟨name :: folder, last, rfl, by simpa using file⟩
          · rwa [append_joinWith_cons path name later.ne_nil]
          · intro outer rest cut some more
            cases outer with
            | nil => exact absurd rfl some
            | cons first outer =>
                obtain ⟨rfl, behind⟩ := List.cons.inj cut
                cases outer with
                | nil => exact enters
                | cons second outer =>
                    rw [append_joinWith_cons path name (List.cons_ne_nil _ _)]
                    exact further _ rest behind (List.cons_ne_nil _ _) more

theorem lists_of_passes (passes : Passes root filter place path names)
    (here : root.at? place = some node) (tree : node.IsTree isName) :
    Lists root filter place path node names := by
  obtain ⟨⟨folder, last, rfl, file⟩, keeps, enters⟩ := passes
  induction folder generalizing place path node with
  | nil =>
      rw [List.append_nil] at file
      obtain ⟨entries, stands⟩ := file.hasFolder
      cases here.symm.trans stands
      cases tree with
      | folder distinct named inside =>
          obtain ⟨child, member, listed⟩ := (isFile_iff here distinct).mp file
          exact .own member listed keeps
  | cons name folder ih =>
      have split : place ++ name :: folder = place ++ [name] ++ folder := by simp
      rw [split] at file
      obtain ⟨inner, deeper⟩ := file.hasFolder.of_append
      obtain ⟨entries, stands⟩ := Node.HasFolder.of_append ⟨inner, deeper⟩
      cases here.symm.trans stands
      have some : folder ++ [last] ≠ [] := by simp
      cases tree with
      | folder distinct named inside =>
          have member := (at?_concat_iff here distinct).mp deeper
          apply Lists.inside member (enters [name] (folder ++ [last]) rfl (by simp) some)
          apply ih deeper (inside _ member) file
          · rwa [List.cons_append, append_joinWith_cons path name some] at keeps
          · intro outer rest cut more further
            rw [← append_joinWith_cons path name more]
            exact enters (name :: outer) rest (by rw [List.cons_append, List.cons_append, cut])
              (List.cons_ne_nil _ _) further

/-- A search lists a path exactly when its names pass. -/
theorem lists_iff_passes (here : root.at? place = some node) (tree : node.IsTree isName) :
    Lists root filter place path node names ↔ Passes root filter place path names :=
  ⟨fun lists => passes_of_lists lists here tree, fun passes => lists_of_passes passes here tree⟩

end Lists

/-- A pattern leaves a path out. The empty pattern leaves nothing out. -/
def IsExcluded (excluded : Option String) (path : String) : Prop :=
  ∃ pattern, excluded = some pattern ∧ pattern ≠ "" ∧ Glob.isMatch pattern path = true

theorem not_isMatch_empty {path : String} (some : path ≠ "") : Glob.isMatch "" path = false := by
  rw [Bool.eq_false_iff]
  intro matched
  obtain ⟨alternative, member, means⟩ := (Glob.matchesChars_iff _ _).mp matched
  cases List.mem_singleton.mp member
  generalize chars : path.toList = text at means
  cases means
  exact some (String.toList_eq_nil_iff.mp chars)

theorem keeps_allBut_iff {excluded : Option String} {path : String} (some : path ≠ "") :
    (Filter.allBut excluded).keeps path = true ↔ ¬ IsExcluded excluded path := by
  cases excluded with
  | none => simp [Filter.allBut, IsExcluded]
  | some pattern =>
      by_cases empty : pattern = ""
      · simp [Filter.allBut, IsExcluded, empty, not_isMatch_empty some]
      · simp [Filter.allBut, IsExcluded, empty]

theorem keeps_ofPatterns_iff {wanted path : String} {excluded : Option String}
    (some : path ≠ "") :
    (Filter.ofPatterns wanted excluded).keeps path = true ↔
      ¬ IsExcluded excluded path ∧ Glob.isMatch wanted path = true := by
  rw [← keeps_allBut_iff some]
  exact Bool.and_eq_true_iff

theorem enters_ofPatterns_iff {wanted path : String} {excluded : Option String} :
    (Filter.ofPatterns wanted excluded).enters path = true ↔
      ¬ IsExcluded excluded (path ++ "/") := by
  apply keeps_allBut_iff
  simp

/-- What a search under a place is to find: the names of a file that folders lead to, whose path is
wanted and not left out, where no folder on the way is left out either. -/
structure IsFound (root : Node) (place : Place) (wanted : String) (excluded : Option String)
    (names : List String) : Prop where
  file : ∃ folder name, names = folder ++ [name] ∧ IsFile root (place ++ folder) name
  wanted : Glob.isMatch wanted (joinWith "/" names) = true
  kept : ¬ IsExcluded excluded (joinWith "/" names)
  entered : ∀ outer inner, names = outer ++ inner → outer ≠ [] → inner ≠ [] →
    ¬ IsExcluded excluded (joinWith "/" outer ++ "/")

section Find

variable {root : Node} {place : Place} {entries : List (String × Node)} {wanted : String}
  {excluded : Option String} {names : List String}

/-- Names that lead to a file are names of the tree. -/
theorem named_of_file (here : root.at? place = some (.folder entries))
    (tree : Node.IsTree Path.IsName (.folder entries))
    (file : ∃ folder name, names = folder ++ [name] ∧ IsFile root (place ++ folder) name) :
    ∀ name ∈ names, Path.IsName name := by
  have passes : Passes root ⟨fun _ => true, fun _ => true⟩ place "" names :=
    ⟨file, rfl, fun _ _ _ _ _ => rfl⟩
  exact (lists_of_passes passes here tree).named tree

theorem lists_iff_isFound (here : root.at? place = some (.folder entries))
    (tree : Node.IsTree Path.IsName (.folder entries)) :
    Lists root (.ofPatterns wanted excluded) place "" (.folder entries) names ↔
      IsFound root place wanted excluded names := by
  have some (file : ∃ folder name, names = folder ++ [name] ∧ IsFile root (place ++ folder) name) :
      "" ++ joinWith "/" names ≠ "" := by
    rw [String.empty_append]
    apply Path.joinWith_ne_empty _ (named_of_file here tree file)
    obtain ⟨folder, name, rfl, -⟩ := file
    simp
  rw [lists_iff_passes here tree]
  constructor
  · rintro ⟨file, keeps, enters⟩
    obtain ⟨kept, wanted⟩ := (keeps_ofPatterns_iff (some file)).mp keeps
    rw [String.empty_append] at kept wanted
    refine ⟨file, wanted, kept, fun outer inner cut more further => ?_⟩
    have entered := enters_ofPatterns_iff.mp (enters outer inner cut more further)
    rwa [String.empty_append] at entered
  · rintro ⟨file, wanted, kept, entered⟩
    refine ⟨file, ?_, fun outer inner cut more further => ?_⟩
    · rw [keeps_ofPatterns_iff (some file), String.empty_append]
      exact ⟨kept, wanted⟩
    · rw [enters_ofPatterns_iff, String.empty_append]
      exact entered outer inner cut more further

/-- The search of a root that leads to a place with something. -/
theorem find_of_node {disk : Disk} {path : String} {node : Node} (wanted : String)
    (excluded : Option String) (leads : disk.locate? path = .ok (some place))
    (holds : disk.tree.at? place = some node) :
    disk.find path wanted excluded none =
      .ok ((searchNode disk.tree (.ofPatterns wanted excluded) place "" node).map
        fun found => Path.under path (Path.components found)) := by
  have joined : Path.join (Path.tidy path) = fun found => Path.under path (Path.components found) :=
    funext fun found => Path.join_tidy path found
  rw [Disk.find, Disk.findBy, leads]
  simp [Except.map, holds, scanNode_eq, Scan.paths_addAll_none, joined]

theorem Scan.paths_addAll_subset (limit : Option Int) (paths : List String) :
    (addAll limit #[] paths).paths ⊆ paths := by
  cases limit with
  | none =>
      rw [paths_addAll_none]
      exact List.Subset.refl paths
  | some count =>
      rw [paths_addAll_some]
      exact List.take_subset _ _

/-- A path that a search answers with is listed below the place that the root leads to. -/
theorem Disk.exists_lists_of_find {disk : Disk} {path found : String} {paths : List String}
    {limit : Option Int} (tree : disk.tree.IsTree Path.IsName)
    (answers : disk.find path wanted excluded limit = .ok paths) (member : found ∈ paths) :
    ∃ place node names, disk.locate? path = .ok (some place) ∧ disk.tree.at? place = some node ∧
      Lists disk.tree (.ofPatterns wanted excluded) place "" node names ∧
      found = Path.under path names := by
  unfold Disk.find Disk.findBy at answers
  cases leads : disk.locate? path with
  | error fault =>
      rw [leads] at answers
      nomatch answers
  | ok target =>
      rw [leads] at answers
      have same := Except.ok.inj answers
      dsimp only at same
      split at same
      · next place node holds =>
        rw [Option.bind_some] at holds
        rw [← same, scanNode_eq] at member
        obtain ⟨relative, among, rfl⟩ := List.mem_map.mp member
        have below := tree.of_at? holds
        obtain ⟨names, lists, rfl⟩ :=
          (mem_searchNode_iff below).mp (Scan.paths_addAll_subset limit _ among)
        refine ⟨place, node, names, rfl, holds, lists, ?_⟩
        rw [String.empty_append, Path.join_tidy,
          Path.components_joinWith lists.ne_nil (lists.named below)]
      · rw [← same] at member
        nomatch member

/-- A search without a limit answers with each file of the folder at its root that is wanted and
not left out, through folders that are not left out: each once, a file of a folder before what is
in its folders, and all by their names. -/
theorem find_lists_files_in_order {disk : Disk} {path : String} (wanted : String)
    (excluded : Option String) (leads : disk.locate? path = .ok (some place))
    (holds : disk.tree.at? place = some (.folder entries))
    (tree : Node.IsTree Path.IsName (.folder entries)) :
    ∃ found : List (List String),
      disk.find path wanted excluded none = .ok (found.map (Path.under path)) ∧
        (found.map (Path.under path)).Nodup ∧
        (∀ names, names ∈ found ↔ IsFound disk.tree place wanted excluded names) ∧
        found.Pairwise Precedes := by
  let filter := Filter.ofPatterns wanted excluded
  let paths := searchNode disk.tree filter place "" (.folder entries)
  have components {names : List String}
      (lists : Lists disk.tree filter place "" (.folder entries) names) :
      Path.components ("" ++ joinWith "/" names) = names := by
    rw [String.empty_append]
    exact Path.components_joinWith lists.ne_nil (lists.named tree)
  have listed (names : List String) :
      names ∈ paths.map Path.components ↔
        Lists disk.tree filter place "" (.folder entries) names := by
    simp only [List.mem_map, paths, mem_searchNode_iff tree]
    constructor
    · rintro ⟨_, ⟨names, lists, rfl⟩, rfl⟩
      rwa [components lists]
    · intro lists
      exact ⟨_, ⟨names, lists, rfl⟩, components lists⟩
  have ordered : (paths.map Path.components).Pairwise Precedes := by
    apply List.pairwise_map.mpr
    apply (pairwise_searchNode tree).imp
    rintro _ _ ⟨names, others, lists, also, rfl, rfl, precedes⟩
    rwa [components lists, components also]
  refine ⟨paths.map Path.components, ?_, ?_, ?_, ordered⟩
  · rw [find_of_node wanted excluded leads holds, List.map_map]
    rfl
  · apply List.Nodup.map_on
    · intro names member others also same
      have below := congrArg (Path.namesBelow path) same
      rwa [Path.namesBelow_under (((listed names).mp member).named tree),
        Path.namesBelow_under (((listed others).mp also).named tree)] at below
    · apply ordered.imp
      rintro names _ precedes rfl
      exact precedes.irrefl
  · intro names
    rw [listed, lists_iff_isFound holds tree]

/-- A project with a folder that is left out, and links of both kinds. -/
def projectEntries : List (String × Node) :=
  [("main.go", .file []), ("vendor", .folder [("dep.go", .file [])]), ("again.go", .link "main.go"),
    ("cmd", .folder [("b.go", .file []), ("notes", .file []), ("a.go", .file [])]),
    ("cmd.go", .link "cmd")]

def projectDisk : Disk where
  tree := .folder [("project", .folder projectEntries)]
  current := []

theorem isTree_projectEntries : Node.IsTree Path.IsOneLineName (.folder projectEntries) := by
  have flat {entries : List (String × Node)} (distinct : (entries.map Prod.fst).Nodup)
      (named : ∀ entry ∈ entries, Path.IsOneLineName entry.1)
      (leaves : ∀ entry ∈ entries, entry.2.isFolder = false) :
      Node.IsTree Path.IsOneLineName (.folder entries) := by
    apply Node.IsTree.folder distinct named
    rintro ⟨name, node⟩ member
    cases node with
    | file bytes => exact .file bytes
    | link target => exact .link target
    | folder inner => nomatch leaves _ member
  apply Node.IsTree.folder (by decide) (by decide)
  simp only [projectEntries, List.forall_mem_cons]
  exact ⟨.file _, flat (by decide) (by decide) (by decide), .link _,
    flat (by decide) (by decide) (by decide), .link _, List.forall_mem_nil _⟩

/-- A folder that is left out and a link to a folder are passed over. -/
theorem find_lists_files_in_order_of_project :
    projectDisk.locate? "/project" = .ok (some ["project"]) ∧
      ∃ found : List (List String),
        projectDisk.find "/project" "**/*.go" (some "**/vendor/**") none =
            .ok (found.map (Path.under "/project")) ∧
          (found.map (Path.under "/project")).Nodup ∧
          (∀ names, names ∈ found ↔
            IsFound projectDisk.tree ["project"] "**/*.go" (some "**/vendor/**") names) ∧
          found.Pairwise Precedes := by
  have leads : projectDisk.locate? "/project" = .ok (some ["project"]) := by decide +kernel
  have tree := isTree_projectEntries.imp fun _ => And.left
  exact ⟨leads, find_lists_files_in_order _ _ leads rfl tree⟩

end Find

end Files

end SymbolJump
