/-
# Searches with a limit

The limit of a search is looked at after each path found. So a search with a limit of one or more
answers with the first paths of the search without one, wherever in the tree the last of them
stands. With the limit zero it answers with one path all the same, when there is one to be found.

Several roots share one limit. Each root is searched with what the roots before it have left over,
and none when nothing is left, so here the limit zero lets nothing through. The paths are the first
of those that the roots hold one after the other, and a root that cannot be searched matters only
when the roots before it do not fill the limit.
-/
import SymbolJump.Proofs.Searches
import SymbolJump.Terminal

namespace SymbolJump

namespace Files.Disk

variable (disk : Disk) (root wanted : String) (excluded : Option String)

/-- A search with a limit takes the first paths of the search without one, at least one of them. -/
theorem findBy_some (filter : Filter) (count : Int) :
    disk.findBy root filter (some count) =
      (disk.findBy root filter none).map (List.take (max 1 count).toNat) := by
  unfold findBy
  cases disk.locate? root with
  | error fault => rfl
  | ok target =>
      cases target with
      | none => simp [Except.map]
      | some place =>
          cases holds : disk.tree.at? place with
          | none => simp [Except.map, holds]
          | some node =>
              simp [Except.map, holds, scanNode_eq, Scan.paths_addAll_none,
                Scan.paths_addAll_some, List.map_take]

theorem find_some (count : Int) :
    disk.find root wanted excluded (some count) =
      (disk.find root wanted excluded none).map (List.take (max 1 count).toNat) :=
  disk.findBy_some root _ count

/-- A limit cuts a search: it answers with the first paths of the search without a limit, and with
no more than the limit says. -/
structure IsCut (limit : Nat) : Prop where
  first : disk.find root wanted excluded (some limit) =
    (disk.find root wanted excluded none).map (List.take limit)
  few : ∀ found, disk.find root wanted excluded (some limit) = .ok found → found.length ≤ limit

/-- There is something to be found. -/
def HoldsWanted : Prop :=
  ∃ path paths, disk.find root wanted excluded none = .ok (path :: paths)

variable {disk root wanted excluded}

theorem isCut_of_pos {limit : Nat} (positive : 0 < limit) :
    disk.IsCut root wanted excluded limit := by
  have same : (max 1 (limit : Int)).toNat = limit := by omega
  constructor
  · rw [find_some, same]
  · intro found answers
    rw [find_some, same] at answers
    cases all : disk.find root wanted excluded none with
    | error fault =>
        rw [all] at answers
        nomatch answers
    | ok paths =>
        rw [all] at answers
        cases answers
        exact List.length_take_le _ _

/-- Where nothing is found, there is nothing to cut. -/
theorem isCut_of_not_holdsWanted (limit : Nat) (nothing : ¬ disk.HoldsWanted root wanted excluded) :
    disk.IsCut root wanted excluded limit := by
  cases all : disk.find root wanted excluded none with
  | error fault =>
      constructor
      · rw [find_some, all]
        rfl
      · intro found answers
        rw [find_some, all] at answers
        nomatch answers
  | ok paths =>
      cases paths with
      | cons path paths => exact absurd ⟨path, paths, all⟩ nothing
      | nil =>
          constructor
          · rw [find_some, all]
            simp [Except.map]
          · intro found answers
            rw [find_some, all, Except.map, List.take_nil] at answers
            cases answers
            exact Nat.zero_le _

variable (disk root wanted excluded)

/-- A limit cuts a search just when it is not zero or nothing is found. With the limit zero, the
first path is the answer. -/
theorem limit_cuts_search_iff (limit : Nat) :
    (disk.IsCut root wanted excluded limit ↔
        ¬ (limit = 0 ∧ disk.HoldsWanted root wanted excluded)) ∧
      disk.find root wanted excluded (some 0) =
        (disk.find root wanted excluded none).map (List.take 1) := by
  refine ⟨⟨?_, ?_⟩, find_some disk root wanted excluded 0⟩
  · rintro ⟨first, few⟩ ⟨rfl, path, paths, found⟩
    have one : disk.find root wanted excluded (some 0) = .ok [path] := by
      rw [find_some, found]
      rfl
    exact absurd (few _ one) (by simp)
  · intro other
    rcases Nat.eq_zero_or_pos limit with zero | positive
    · exact isCut_of_not_holdsWanted limit fun holds => other ⟨zero, holds⟩
    · exact isCut_of_pos positive

/-- The limit zero does not cut the search of a folder with one wanted file in it. -/
theorem not_isCut_of_zero :
    ¬ Disk.IsCut { tree := .folder [("a.py", .file [])], current := [] } "/" "*.py" none 0 := by
  intro cut
  have one : Disk.find { tree := .folder [("a.py", .file [])], current := [] } "/" "*.py" none
      (some 0) = .ok ["/a.py"] := by decide +kernel
  exact absurd (cut.few _ one) (by decide)

end Files.Disk

namespace Terminal

open Files

variable (disk : Disk) (wanted excluded : Value)

/-- The search of one root with a limit that is not used up takes the first paths. -/
theorem findUnder_some (root : String) {limit : Nat} (positive : 0 < limit) :
    findUnder disk root wanted excluded (some limit) =
      (findUnder disk root wanted excluded none).map (List.take limit) := by
  have same : (max 1 (limit : Int)).toNat = limit := by omega
  unfold findUnder
  cases exclusion disk root excluded with
  | error fault => rfl
  | ok excluded =>
      simp only [bind, Except.bind]
      split
      · rw [Disk.find_some, same]
      · -- A pattern that is no text finds nothing or fails, whatever the limit.
        cases disk.findBy root (.allBut excluded) (some 1) with
        | error fault => rfl
        | ok found =>
            cases found with
            | nil => simp [Except.map, pure, Except.pure]
            | cons path paths => rfl

theorem findUnderAll_zero (roots : List String) :
    findUnderAll disk wanted excluded roots (some 0) = .ok [] := by
  cases roots <;> rfl

/-- A root that can be searched uses the limit up as far as its paths go, and what is left over is
for the roots after it. -/
theorem findUnderAll_cons {root : String} {found : List String}
    (searched : findUnder disk root wanted excluded none = .ok found) (roots : List String)
    (limit : Nat) :
    findUnderAll disk wanted excluded (root :: roots) (some limit) =
      (findUnderAll disk wanted excluded roots (some (limit - found.length : Nat))).map
        (found.take limit ++ ·) := by
  rcases Nat.eq_zero_or_pos limit with rfl | positive
  · simp [findUnderAll_zero, Except.map]
  · have left : (limit : Int) - (found.take limit).length = (limit - found.length : Nat) := by
      rw [List.length_take]
      omega
    have some : ¬ (limit : Int) ≤ 0 := by omega
    rw [findUnderAll, findUnder_some disk wanted excluded root positive, searched]
    simp only [Option.map_some, Option.getD_some, some, decide_false, Bool.false_eq_true, if_false,
      Except.map, bind, Except.bind, left]
    cases findUnderAll disk wanted excluded roots _ <;> rfl

theorem findUnderAll_append {roots : List String} {found : List (List String)}
    (searched : List.Forall₂
      (fun root found => findUnder disk root wanted excluded none = .ok found) roots found)
    (more : List String) (limit : Nat) :
    findUnderAll disk wanted excluded (roots ++ more) (some limit) =
      (findUnderAll disk wanted excluded more (some (limit - found.flatten.length : Nat))).map
        (found.flatten.take limit ++ ·) := by
  induction searched generalizing limit with
  | nil =>
      rw [List.nil_append, List.flatten_nil, List.take_nil, List.length_nil, Nat.sub_zero]
      cases findUnderAll disk wanted excluded more (some limit) <;> rfl
  | @cons root here roots found searched _ ih =>
      have left : limit - here.length - found.flatten.length =
          limit - (here :: found).flatten.length := by
        rw [List.flatten_cons, List.length_append]
        omega
      rw [List.cons_append, findUnderAll_cons disk wanted excluded searched, ih, left,
        List.flatten_cons, List.take_append]
      cases findUnderAll disk wanted excluded more _ with
      | error fault => rfl
      | ok rest => simp [Except.map]

theorem findUnderAll_of_fails {root : String} {fault : Fault}
    (fails : findUnder disk root wanted excluded none = .error fault) (roots : List String)
    {limit : Nat} (positive : 0 < limit) :
    findUnderAll disk wanted excluded (root :: roots) (some limit) = .error fault := by
  have some : ¬ (limit : Int) ≤ 0 := by omega
  rw [findUnderAll, findUnder_some disk wanted excluded root positive, fails]
  simp only [Option.map_some, Option.getD_some, some, decide_false, Bool.false_eq_true, if_false,
    Except.map, bind, Except.bind]

/-- The terminal searches its roots for as many paths as a limit says: they are the first of those
that the searches of the single roots answer with, one after the other. A root whose search fails
makes this search fail when the roots before it do not fill the limit, and is not looked at
otherwise. -/
theorem roots_share_limit (terminal : Terminal) (machine : Machine) (wanted excluded : Value)
    (limit : Nat) :
    let searched := List.Forall₂ fun root found =>
      findUnder machine.disk root wanted excluded none = .ok found
    let course := (terminal.host.findFiles wanted excluded (some limit)).start machine
    (∀ found, searched terminal.roots found →
        course = (.ok (found.flatten.take limit), machine)) ∧
      ∀ before root after found fault, terminal.roots = before ++ root :: after →
        searched before found →
        findUnder machine.disk root wanted excluded none = .error fault →
        course = (if limit ≤ found.flatten.length then .ok (found.flatten.take limit)
          else .error fault, machine) := by
  intro searched course
  have answers : course =
      (findUnderAll machine.disk wanted excluded terminal.roots (some limit), machine) := rfl
  rw [answers]
  refine ⟨fun found all => ?_, fun before root after found fault roots all fails => ?_⟩
  · rw [← List.append_nil terminal.roots, findUnderAll_append _ _ _ all]
    simp [findUnderAll, Except.map]
  · rw [roots, findUnderAll_append _ _ _ all]
    rcases Nat.eq_zero_or_pos (limit - found.flatten.length) with full | left
    · have enough : limit ≤ found.flatten.length := by omega
      rw [full, if_pos enough]
      simp [findUnderAll_zero, Except.map]
    · have short : ¬ limit ≤ found.flatten.length := by omega
      rw [if_neg short, findUnderAll_of_fails _ _ _ fails after left]
      rfl

/-- Two folders with a source file in each. -/
def sourcesDisk : Disk where
  tree := .folder [("a", .folder [("x.go", .file [])]), ("b", .folder [("y.go", .file [])])]
  current := []

/-- A missing root holds nothing, and one given twice counts twice, if the limit goes so far. -/
theorem roots_share_limit_of_repeated :
    let terminal : Terminal :=
      { roots := ["/nowhere", "/a", "/b", "/a"], indexPath := "/index.json", editorCommand := "" }
    let limit : Nat := 2
    List.Forall₂
        (fun root found => findUnder sourcesDisk root (.text "*.go") .null none = .ok found)
        terminal.roots [[], ["/a/x.go"], ["/b/y.go"], ["/a/x.go"]] ∧
      (terminal.host.findFiles (.text "*.go") .null (some limit)).start { disk := sourcesDisk } =
        (.ok ["/a/x.go", "/b/y.go"], { disk := sourcesDisk }) := by
  intro terminal limit
  have nowhere : findUnder sourcesDisk "/nowhere" (.text "*.go") .null none = .ok [] := by
    decide +kernel
  have first : findUnder sourcesDisk "/a" (.text "*.go") .null none = .ok ["/a/x.go"] := by
    decide +kernel
  have second : findUnder sourcesDisk "/b" (.text "*.go") .null none = .ok ["/b/y.go"] := by
    decide +kernel
  have searched : List.Forall₂
      (fun root found => findUnder sourcesDisk root (.text "*.go") .null none = .ok found)
      terminal.roots [[], ["/a/x.go"], ["/b/y.go"], ["/a/x.go"]] :=
    .cons nowhere (.cons first (.cons second (.cons first .nil)))
  exact ⟨searched,
    (roots_share_limit terminal { disk := sourcesDisk } (.text "*.go") .null limit).1 _ searched⟩

end Terminal

end SymbolJump
