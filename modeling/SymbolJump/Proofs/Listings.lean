/-
# Listings

What a search finds is listed here as a whole, entry by entry: in the order of their names, the
files of a folder that are kept, and then the listings of its folders that are entered. A scan goes
through the same tree with the paths found so far, and may stop anywhere in it. By induction on the
tree it adds the paths of the listing one after the other, so a scan with a limit stops in the
listing where it would stop in any list of paths.
-/
import Mathlib.Data.List.Basic
import SymbolJump.Files.Search

namespace SymbolJump.Files

/-- What one entry of a folder contributes to a search: its own path, or the paths found in
it. -/
inductive Contribution
  | file (path : String)
  | folder (paths : List String)
  | nothing

/-- The paths that the entries of a folder contribute: its files, then its folders. -/
def gather (contributions : List (String × Contribution)) : List String :=
  let sorted := sortByName contributions
  let files := sorted.filterMap fun entry =>
    match entry.2 with
    | .file path => some path
    | _ => none
  let folders := sorted.flatMap fun entry =>
    match entry.2 with
    | .folder paths => paths
    | _ => []
  files ++ folders

mutual

/-- The relative paths that a search finds in an entry. The path given is that of the entry with
a slash after it, empty for the folder searched. -/
def searchNode (root : Node) (filter : Filter) (place : Place) (path : String) :
    Node → List String
  | .folder entries => gather (searchEntries root filter place path entries)
  | .file _ | .link _ => []

/-- What each entry of a folder contributes to a search. -/
def searchEntries (root : Node) (filter : Filter) (place : Place) (path : String) :
    List (String × Node) → List (String × Contribution)
  | [] => []
  | (name, node) :: entries =>
      let own := path ++ name
      let contribution :=
        match node with
        | .folder _ =>
            if filter.enters own then
              .folder (searchNode root filter (place ++ [name]) (own ++ "/") node)
            else .nothing
        | .file _ => if filter.keeps own then .file own else .nothing
        | .link _ =>
            if leadsToFolder root place name then .nothing
            else if filter.keeps own then .file own
            else .nothing
      (name, contribution) :: searchEntries root filter place path entries

end

theorem sortByName_map {α β : Type} (f : String × α → β) (entries : List (String × α)) :
    sortByName (entries.map fun entry => (entry.1, f entry)) =
      (sortByName entries).map fun entry => (entry.1, f entry) := by
  apply Eq.symm
  apply List.map_mergeSort
  intro first _ second _
  rfl

theorem mem_sortByName {α : Type} {entries : List (String × α)} {entry : String × α} :
    entry ∈ sortByName entries ↔ entry ∈ entries :=
  List.mem_mergeSort

/-- The path that a contribution has of its own. -/
def Contribution.own? : Contribution → Option String
  | .file path => some path
  | _ => none

/-- The paths that a contribution has from a folder. -/
def Contribution.inside : Contribution → List String
  | .folder paths => paths
  | _ => []

theorem gather_eq (contributions : List (String × Contribution)) :
    gather contributions =
      (sortByName contributions).filterMap (fun entry => entry.2.own?) ++
        (sortByName contributions).flatMap fun entry => entry.2.inside := rfl

section Entries

variable (root : Node) (filter : Filter) (place : Place) (path : String)

/-- Whether an entry of a folder counts as a file. -/
def isListed (entry : String × Node) : Bool :=
  match entry.2 with
  | .folder _ => false
  | .file _ => true
  | .link _ => !leadsToFolder root place entry.1

/-- What an entry of a folder contributes to a search. -/
def contributionOf (entry : String × Node) : Contribution :=
  match entry.2 with
  | .folder _ =>
      if filter.enters (path ++ entry.1) then
        .folder (searchNode root filter (place ++ [entry.1]) (path ++ entry.1 ++ "/") entry.2)
      else .nothing
  | _ =>
      if isListed root place entry && filter.keeps (path ++ entry.1) then
        .file (path ++ entry.1)
      else .nothing

theorem searchEntries_eq (entries : List (String × Node)) :
    searchEntries root filter place path entries =
      entries.map fun entry => (entry.1, contributionOf root filter place path entry) := by
  induction entries with
  | nil => rfl
  | cons entry entries ih =>
      obtain ⟨name, node⟩ := entry
      cases node with
      | file bytes => simp [searchEntries, ih, contributionOf, isListed]
      | folder inner => simp [searchEntries, ih, contributionOf]
      | link target =>
          cases leads : leadsToFolder root place name <;>
            simp [searchEntries, ih, contributionOf, isListed, leads]

/-- A folder is searched entry by entry in the order of their names: first its files, then its
folders. -/
theorem searchNode_folder (entries : List (String × Node)) :
    searchNode root filter place path (.folder entries) =
      (sortByName entries).filterMap
          (fun entry => (contributionOf root filter place path entry).own?) ++
        (sortByName entries).flatMap
          fun entry => (contributionOf root filter place path entry).inside := by
  rw [searchNode, searchEntries_eq, gather_eq, sortByName_map, List.filterMap_map,
    List.flatMap_map]
  rfl

variable {root filter place path}

theorem own?_contributionOf {entry : String × Node} {found : String} :
    (contributionOf root filter place path entry).own? = some found ↔
      isListed root place entry = true ∧ filter.keeps (path ++ entry.1) = true ∧
        found = path ++ entry.1 := by
  obtain ⟨name, node⟩ := entry
  cases node with
  | folder inner =>
      simp only [contributionOf, isListed]
      split <;> simp [Contribution.own?]
  | _ =>
      simp only [contributionOf]
      split
      · next both =>
        obtain ⟨listed, keeps⟩ := Bool.and_eq_true_iff.mp both
        simp [Contribution.own?, listed, keeps, eq_comm]
      · next neither =>
        simp only [Contribution.own?, reduceCtorEq, false_iff]
        rintro ⟨listed, keeps, -⟩
        exact neither (Bool.and_eq_true_iff.mpr ⟨listed, keeps⟩)

theorem mem_inside_contributionOf {entry : String × Node} {found : String} :
    found ∈ (contributionOf root filter place path entry).inside ↔
      ∃ inner, entry.2 = .folder inner ∧ filter.enters (path ++ entry.1) = true ∧
        found ∈ searchNode root filter (place ++ [entry.1]) (path ++ entry.1 ++ "/") entry.2 := by
  obtain ⟨name, node⟩ := entry
  cases node with
  | folder inner =>
      simp only [contributionOf]
      split
      · next enters => simp [Contribution.inside, enters]
      · next shut => simp [Contribution.inside, shut]
  | _ =>
      simp only [contributionOf]
      split <;> simp [Contribution.inside]

end Entries

namespace Scan

/-- Add paths to those found, one after the other. -/
def addAll (limit : Option Int) (found : Array String) (paths : List String) : Scan :=
  paths.foldlM (add limit) found

theorem addAll_append (limit : Option Int) (found : Array String) (paths more : List String) :
    addAll limit found (paths ++ more) =
      addAll limit found paths >>= fun found => addAll limit found more :=
  List.foldlM_append

theorem addAll_flatMap {α : Type} (limit : Option Int) (found : Array String) (items : List α)
    (pathsOf : α → List String) :
    addAll limit found (items.flatMap pathsOf) =
      items.foldlM (fun found item => addAll limit found (pathsOf item)) found := by
  induction items generalizing found with
  | nil => rfl
  | cons item items ih =>
      rw [List.flatMap_cons, addAll_append, List.foldlM_cons]
      exact bind_congr fun found => ih found

/-- Without a limit all paths are added. -/
theorem paths_addAll_none (found : Array String) (paths : List String) :
    (addAll none found paths).paths = found.toList ++ paths := by
  induction paths generalizing found with
  | nil => simp [addAll, Scan.paths, pure, Except.pure]
  | cons path paths ih =>
      have added : addAll none found (path :: paths) = addAll none (found.push path) paths := rfl
      rw [added, ih, Array.toList_push, List.append_assoc, List.singleton_append]

/-- With a limit the first paths are added, up to the limit but at least one. -/
theorem paths_addAll_some (count : Int) (found : Array String) (paths : List String) :
    (addAll (some count) found paths).paths =
      found.toList ++ paths.take (max 1 (count - found.size)).toNat := by
  induction paths generalizing found with
  | nil => simp [addAll, Scan.paths, pure, Except.pure]
  | cons path paths ih =>
      by_cases enough : count ≤ (found.push path).size
      · have stopped : addAll (some count) found (path :: paths) = .error (found.push path) := by
          rw [addAll, List.foldlM_cons, add, isEnough, decide_eq_true enough]
          rfl
        rw [Array.size_push] at enough
        have one : (max 1 (count - found.size)).toNat = 1 := by omega
        rw [stopped, one, Scan.paths, Array.toList_push, List.take_succ_cons, List.take_zero]
      · have added : addAll (some count) found (path :: paths) =
            addAll (some count) (found.push path) paths := by
          rw [addAll, List.foldlM_cons, add, isEnough, decide_eq_false enough]
          rfl
        rw [Array.size_push] at enough
        have more : (max 1 (count - found.size)).toNat =
            (max 1 (count - (found.push path).size)).toNat + 1 := by
          rw [Array.size_push]
          omega
        rw [added, ih, more, List.take_succ_cons, Array.toList_push, List.append_assoc,
          List.singleton_append]

end Scan

/-- What holds of files and links, and of a folder when it holds of what is in it, holds of every
entry. -/
@[elab_as_elim]
theorem Node.induction {p : Node → Prop} (file : ∀ bytes, p (.file bytes))
    (link : ∀ target, p (.link target))
    (folder : ∀ entries : List (String × Node), (∀ entry ∈ entries, p entry.2) →
      p (.folder entries)) (node : Node) : p node :=
  @Node.rec p (fun entries => ∀ entry ∈ entries, p entry.2) (fun entry => p entry.2) file folder
    link (fun _ member => nomatch member)
    (fun _ _ here later => List.forall_mem_cons.mpr ⟨here, later⟩) (fun _ _ here => here) node

theorem foldlM_congr_of_mem {m : Type → Type} [Monad m] {α β : Type} {step also : β → α → m β}
    {items : List α} (same : ∀ item ∈ items, ∀ found, step found item = also found item)
    (found : β) : items.foldlM step found = items.foldlM also found := by
  induction items generalizing found with
  | nil => rfl
  | cons item items ih =>
      obtain ⟨here, later⟩ := List.forall_mem_cons.mp same
      rw [List.foldlM_cons, List.foldlM_cons, here]
      exact bind_congr fun found => ih later found

section Scan

variable (root : Node) (filter : Filter) (limit : Option Int) (place : Place) (path : String)

/-- What an entry of a folder means to a scan. -/
def visitTo (entry : String × Node) : Visit :=
  match entry.2 with
  | .folder _ =>
      .folder (path ++ entry.1)
        (scanNode root filter limit (place ++ [entry.1]) (path ++ entry.1 ++ "/") entry.2)
  | _ => if isListed root place entry then .file (path ++ entry.1) else .nothing

theorem visitsTo_eq (entries : List (String × Node)) :
    visitsTo root filter limit place path entries =
      entries.map fun entry => (entry.1, visitTo root filter limit place path entry) := by
  induction entries with
  | nil => rfl
  | cons entry entries ih =>
      obtain ⟨name, node⟩ := entry
      cases node with
      | file bytes => simp [visitsTo, ih, visitTo, isListed]
      | folder inner => simp [visitsTo, ih, visitTo]
      | link target =>
          cases leads : leadsToFolder root place name <;>
            simp [visitsTo, ih, visitTo, isListed, leads]

theorem scanNode_folder (entries : List (String × Node)) (found : Array String) :
    scanNode root filter limit place path (.folder entries) found = (do
      let found ← (sortByName entries).foldlM (fun found entry =>
        (visitTo root filter limit place path entry).look filter limit found) found
      (sortByName entries).foldlM (fun found entry =>
        (visitTo root filter limit place path entry).enter filter found) found) := by
  rw [scanNode, visitsTo_eq, sortByName_map]
  simp only [List.foldlM_map]

/-- Looking at an entry adds the path that it contributes itself. -/
theorem look_visitTo (entry : String × Node) (found : Array String) :
    (visitTo root filter limit place path entry).look filter limit found =
      Scan.addAll limit found (contributionOf root filter place path entry).own?.toList := by
  obtain ⟨name, node⟩ := entry
  cases node with
  | folder inner =>
      simp only [contributionOf]
      split <;> rfl
  | _ =>
      simp only [visitTo, contributionOf]
      cases listed : isListed root place (name, _) with
      | false => rfl
      | true =>
          cases keeps : filter.keeps (path ++ name) with
          | false => simp [Visit.look, Contribution.own?, keeps, Scan.addAll]
          | true => simp [Visit.look, Contribution.own?, keeps, Scan.addAll]

/-- Going into an entry adds the paths listed in it, when that is so for the scan of the entry. -/
theorem enter_visitTo {entry : String × Node}
    (inside : ∀ place path found, scanNode root filter limit place path entry.2 found =
      Scan.addAll limit found (searchNode root filter place path entry.2)) (found : Array String) :
    (visitTo root filter limit place path entry).enter filter found =
      Scan.addAll limit found (contributionOf root filter place path entry).inside := by
  obtain ⟨name, node⟩ := entry
  cases node with
  | folder inner =>
      simp only [visitTo, contributionOf, Visit.enter]
      split
      · exact inside _ _ found
      · rfl
  | _ =>
      simp only [visitTo, contributionOf]
      split <;> split <;> rfl

/-- A scan of an entry adds the paths listed in it. -/
theorem scanNode_eq (node : Node) (place : Place) (path : String) (found : Array String) :
    scanNode root filter limit place path node found =
      Scan.addAll limit found (searchNode root filter place path node) := by
  induction node using Node.induction generalizing place path found with
  | file bytes => rfl
  | link target => rfl
  | folder entries ih =>
      rw [scanNode_folder, searchNode_folder, List.filterMap_eq_flatMap_toList,
        Scan.addAll_append, Scan.addAll_flatMap]
      simp only [look_visitTo, Scan.addAll_flatMap]
      apply bind_congr
      intro found
      apply foldlM_congr_of_mem
      intro entry member found
      exact enter_visitTo root filter limit place path (ih entry (mem_sortByName.mp member)) found

end Scan

end SymbolJump.Files
