/-
# Folders that are left out

A search does not look into a folder whose path, with a slash after it, is left out. Where the
pattern for what is left out ends in two stars, this saves work and changes nothing else. The stars
reach over whatever stands below a folder, so below a folder that the pattern matches there are
only paths that it matches as well. What is then found is what is found without the pattern, less
the paths that it matches.
-/
import SymbolJump.Proofs.Groups
import SymbolJump.Proofs.Searches
import SymbolJump.Settings.Config
import SymbolJump.Settings.Defaults

namespace SymbolJump

open Text

namespace Glob

/-- A pattern ends in two stars. -/
def EndsInStars (pattern : List Char) : Prop :=
  ['*', '*'] <:+ pattern

/-- A path is that of a folder, with a slash after it, or empty. -/
def IsFolderPath (path : List Char) : Prop :=
  ∀ c ∈ path.getLast?, c = '/'

instance (pattern : List Char) : Decidable (EndsInStars pattern) :=
  inferInstanceAs (Decidable (['*', '*'] <:+ pattern))

section Stars

variable {c : Char} {front rest pattern path more : List Char}

theorem EndsInStars.tail (stars : EndsInStars (c :: rest)) (other : c ≠ '*') :
    EndsInStars rest := by
  rcases List.suffix_cons_iff.mp stars with same | later
  · exact absurd (List.cons.inj same).1.symm other
  · exact later

/-- The stars at the end stand behind any other character. -/
theorem EndsInStars.of_append_cons (front : List Char)
    (stars : EndsInStars (front ++ c :: rest)) (other : c ≠ '*') : EndsInStars rest := by
  rcases List.suffix_or_suffix_of_suffix stars (List.suffix_append front (c :: rest)) with
    behind | within
  · exact EndsInStars.tail behind other
  · have star : c ∈ ['*', '*'] := within.subset List.mem_cons_self
    simp [other] at star

/-- Two stars at the end stay there when groups are replaced, for no group ends in a star. -/
theorem endsInStars_of_mem_expandChars (stars : EndsInStars pattern) :
    ∀ alternative ∈ expandChars pattern, EndsInStars alternative := by
  apply forall_mem_expandChars _ stars
  intro pattern before inside after option found _ stars
  obtain ⟨rfl, -⟩ := eq_of_firstGroup? found
  rw [← List.cons_append, ← List.append_assoc] at stars
  exact List.suffix_append_of_suffix (stars.of_append_cons _ (by decide))

theorem IsFolderPath.of_append (front : List Char) (folder : IsFolderPath (front ++ rest)) :
    IsFolderPath rest := by
  intro c last
  apply folder
  rw [Option.mem_def] at last ⊢
  rw [List.getLast?_append, last, Option.some_or]

theorem IsFolderPath.eq_nil (folder : IsFolderPath path) (inside : '/' ∉ path) : path = [] := by
  apply List.getLast?_eq_none_iff.mp
  rw [Option.eq_none_iff_forall_not_mem]
  intro c last
  cases folder c last
  exact inside (List.mem_of_getLast? last)

/-- A pattern that ends in two stars means all below a folder that it means. -/
theorem Means.append (means : Means pattern path) (stars : EndsInStars pattern)
    (folder : IsFolderPath path) (oneLine : IsOneLine more) : Means pattern (path ++ more) := by
  have longer {text : List Char} (first : IsOneLine text) : IsOneLine (text ++ more) := by
    simpa [IsOneLine] using ⟨first, oneLine⟩
  induction means with
  | done => simp [EndsInStars] at stars
  | noFolder later ih =>
      exact .noFolder (ih (stars.of_append_cons ['*', '*'] (by decide)) folder)
  | folders first closed later ih =>
      rw [List.append_assoc]
      have behind := stars.of_append_cons ['*', '*'] (by decide)
      exact .folders first closed (ih behind (folder.of_append _))
  | @anything rest text path noSlash first later ih =>
      rcases List.suffix_cons_iff.mp stars with same | stars
      · -- The two stars are the last ones.
        cases same
        cases later
        rw [List.append_nil, ← List.append_nil (text ++ more)]
        exact .anything noSlash (longer first) .done
      · rcases List.suffix_cons_iff.mp stars with same | stars
        · -- One star is left over, and there is no text for it behind the slash of a folder.
          cases same
          cases later with
          | @inComponent _ inner _ noStar inside later =>
              cases later
              rw [List.append_nil] at folder
              cases (folder.of_append text).eq_nil inside
              rw [List.append_nil, List.append_nil, ← List.append_nil (text ++ more)]
              exact .anything noSlash (longer first) (@Means.inComponent _ [] _ noStar inside .done)
          | char noStar => exact absurd rfl noStar
        · rw [List.append_assoc]
          exact .anything noSlash first (ih stars (folder.of_append _))
  | @inComponent rest text path noStar inside later ih =>
      rw [List.append_assoc]
      rcases List.suffix_cons_iff.mp stars with same | stars
      · cases same
        exact absurd rfl noStar
      · exact .inComponent noStar inside (ih stars (folder.of_append _))
  | @oneChar c rest path inside later ih =>
      exact .oneChar inside (ih (stars.tail (by decide)) (folder.of_append [c]))
  | @char c rest path noStar noMark later ih =>
      exact .char noStar noMark (ih (stars.tail noStar) (folder.of_append [c]))

end Stars

/-- A folder that is matched by a pattern with two stars at its end holds only what is matched. -/
theorem isMatch_below {pattern folder inside : String} (stars : EndsInStars pattern.toList)
    (oneLine : IsOneLine inside.toList) (matched : isMatch pattern (folder ++ "/") = true) :
    isMatch pattern (folder ++ "/" ++ inside) = true := by
  rw [isMatch, matchesChars_iff] at matched ⊢
  obtain ⟨alternative, member, means⟩ := matched
  refine ⟨alternative, member, ?_⟩
  rw [String.toList_append]
  apply means.append (endsInStars_of_mem_expandChars stars _ member) _ oneLine
  simp [IsFolderPath]

/-- Without the stars, a folder may be matched and what is in it not. -/
example : isMatch "**/vendor/" "vendor/" = true ∧ isMatch "**/vendor/" "vendor/dep.go" = false := by
  decide +kernel

end Glob

namespace Path

/-- A path as it stands below a root. -/
def below (root path : String) : String :=
  joinWith "/" (namesBelow root path)

theorem isOneLine_joinWith {names : List String} (named : ∀ name ∈ names, IsOneLineName name) :
    Glob.IsOneLine (joinWith "/" names).toList := by
  induction names with
  | nil => simp [joinWith, Glob.IsOneLine]
  | cons name names ih =>
      obtain ⟨first, others⟩ := List.forall_mem_cons.mp named
      by_cases none : names = []
      · cases none
        exact first.2
      · have later := ih others
        have plain := first.2
        simp only [Glob.IsOneLine] at later plain ⊢
        simp [joinWith_cons "/" name none, plain, later]

end Path

namespace Files

/-- A filter keeps what another one keeps and a test lets through, and it shuts no folder with
names below that the test would let through. -/
structure Filter.Narrows (isName : String → Prop) (lets : String → Bool) (narrow wide : Filter) :
    Prop where
  keeps : ∀ path, narrow.keeps path = (wide.keeps path && lets path)
  enters : ∀ path, narrow.enters path = true → wide.enters path = true
  shut : ∀ path names, narrow.enters path = false → (∀ name ∈ names, isName name) →
    lets (path ++ "/" ++ joinWith "/" names) = false

section Narrows

variable {isName : String → Prop} {lets : String → Bool} {narrow wide : Filter}
  {root node : Node} {place : Place} {path : String}

theorem own?_of_narrows (narrows : Filter.Narrows isName lets narrow wide)
    (entry : String × Node) :
    (contributionOf root narrow place path entry).own? =
      (contributionOf root wide place path entry).own?.filter lets := by
  apply Option.ext
  intro found
  rw [own?_contributionOf, Option.filter_eq_some_iff, own?_contributionOf, narrows.keeps,
    Bool.and_eq_true]
  constructor
  · rintro ⟨listed, ⟨keeps, passes⟩, rfl⟩
    exact ⟨⟨listed, keeps, rfl⟩, passes⟩
  · rintro ⟨⟨listed, keeps, rfl⟩, passes⟩
    exact ⟨listed, ⟨keeps, passes⟩, rfl⟩

/-- The narrower search finds what the test lets through, also where it shuts folders. -/
theorem searchNode_of_narrows (narrows : Filter.Narrows isName lets narrow wide)
    (tree : node.IsTree isName) :
    searchNode root narrow place path node =
      (searchNode root wide place path node).filter lets := by
  induction tree generalizing place path with
  | file bytes => rfl
  | link target => rfl
  | @folder entries distinct named inside ih =>
      rw [searchNode_folder, searchNode_folder, List.filter_append, List.filter_filterMap,
        List.filter_flatMap]
      congr 1
      · exact List.filterMap_congr fun entry _ => own?_of_narrows narrows entry
      · apply List.flatMap_congr
        rintro ⟨name, node⟩ member
        have among := mem_sortByName.mp member
        cases node with
        | folder inner =>
            cases enters : narrow.enters (path ++ name) with
            | true =>
                simp only [contributionOf, enters, narrows.enters _ enters, if_true]
                exact ih _ among
            | false =>
                have none : (contributionOf root narrow place path (name, .folder inner)).inside =
                    [] := by
                  simp [contributionOf, enters, Contribution.inside]
                -- Whatever the wider search finds in here, the test lets nothing of it through.
                rw [none, eq_comm, List.filter_eq_nil_iff]
                intro found there
                obtain ⟨_, _, _, deeper⟩ := mem_inside_contributionOf.mp there
                obtain ⟨names, lists, rfl⟩ := (mem_searchNode_iff (inside _ among)).mp deeper
                rw [narrows.shut _ names enters (lists.named (inside _ among))]
                exact Bool.false_ne_true
        | _ =>
            simp only [contributionOf]
            split <;> split <;> rfl

end Narrows

/-- A pattern that ends in two stars leaves out nothing but the paths that it matches. -/
theorem narrows_ofPatterns (wanted : String) {excluded : String}
    (stars : Glob.EndsInStars excluded.toList) :
    Filter.Narrows Path.IsOneLineName (fun path => !Glob.isMatch excluded path)
      (.ofPatterns wanted (some excluded)) (.ofPatterns wanted none) where
  keeps path := Bool.and_comm _ _
  enters _ _ := rfl
  shut path names shut named := by
    have matched : Glob.isMatch excluded (path ++ "/") = true := by
      simpa [Filter.ofPatterns, Filter.allBut] using shut
    simp [Glob.isMatch_below stars (Path.isOneLine_joinWith named) matched]

/-- The detectors of the default configuration leave out what two stars at the end take in. -/
theorem endsInStars_of_mem_defaultDetectors :
    ∀ entry ∈ Settings.defaultDetectors, ∃ detector excluded,
      Settings.detectorOf entry = .ok detector ∧ detector.excluded = .text excluded ∧
        Glob.EndsInStars excluded.toList := by
  simp only [Settings.defaultDetectors, List.forall_mem_cons]
  refine ⟨?_, ?_, ?_, ?_, ?_, ?_, ?_, List.forall_mem_nil _⟩
  all_goals exact ⟨_, _, rfl, rfl, by decide⟩

/-- The names of the tree that a root leads to have no line breaks. -/
def Disk.IsOneLineAt (disk : Disk) (root : String) : Prop :=
  ∀ place node, disk.locate? root = .ok (some place) → disk.tree.at? place = some node →
    node.IsTree Path.IsOneLineName

theorem find_eq_filter_of_isOneLineAt {disk : Disk} {root excluded : String} (wanted : String)
    (stars : Glob.EndsInStars excluded.toList) (oneLine : disk.IsOneLineAt root) :
    disk.find root wanted (some excluded) none =
      (disk.find root wanted none none).map
        (List.filter fun path => !Glob.isMatch excluded (Path.below root path)) := by
  cases leads : disk.locate? root with
  | error fault => simp [Disk.find, Disk.findBy, leads, Except.map]
  | ok target =>
      cases target with
      | none => simp [Disk.find, Disk.findBy, leads, Except.map]
      | some place =>
          cases holds : disk.tree.at? place with
          | none => simp [Disk.find, Disk.findBy, leads, holds, Except.map]
          | some node =>
              have tree := oneLine place node leads holds
              rw [find_of_node wanted _ leads holds, find_of_node wanted _ leads holds,
                searchNode_of_narrows (narrows_ofPatterns wanted stars) tree]
              simp only [Except.map, List.filter_map]
              apply congrArg Except.ok
              apply congrArg (List.map _)
              apply List.filter_congr
              intro found there
              obtain ⟨names, lists, rfl⟩ := (mem_searchNode_iff tree).mp there
              have named name (member : name ∈ names) : Path.IsName name :=
                (lists.named tree name member).1
              rw [Function.comp_apply, String.empty_append,
                Path.components_joinWith lists.ne_nil named, Path.below,
                Path.namesBelow_under named]

/-- Not to look into folders changes nothing where two stars end the pattern for what is left out,
as they do in all default detectors. Below names without line breaks, a search then answers with
the files that it answers with when nothing is left out, in the same order, less those whose own
path is matched. -/
theorem find_leaves_out_what_is_matched :
    (∀ entry ∈ Settings.defaultDetectors, ∃ detector excluded,
      Settings.detectorOf entry = .ok detector ∧ detector.excluded = .text excluded ∧
        Glob.EndsInStars excluded.toList) ∧
      ∀ (disk : Disk) (root wanted excluded : String), Glob.EndsInStars excluded.toList →
        disk.IsOneLineAt root →
        disk.find root wanted (some excluded) none =
          (disk.find root wanted none none).map
            (List.filter fun path => !Glob.isMatch excluded (Path.below root path)) :=
  ⟨endsInStars_of_mem_defaultDetectors,
    fun _ _ wanted _ stars oneLine => find_eq_filter_of_isOneLineAt wanted stars oneLine⟩

theorem isOneLineAt_projectDisk : projectDisk.IsOneLineAt "/project" := by
  intro place node leads holds
  have there : projectDisk.locate? "/project" = .ok (some ["project"]) := by decide +kernel
  cases there.symm.trans leads
  cases holds
  exact isTree_projectEntries

theorem find_leaves_out_what_is_matched_of_project :
    Glob.EndsInStars "**/vendor/**".toList ∧ projectDisk.IsOneLineAt "/project" ∧
      projectDisk.find "/project" "**/*.go" (some "**/vendor/**") none =
        (projectDisk.find "/project" "**/*.go" none none).map
          (List.filter fun path => !Glob.isMatch "**/vendor/**" (Path.below "/project" path)) := by
  have stars : Glob.EndsInStars "**/vendor/**".toList := by decide
  exact ⟨stars, isOneLineAt_projectDisk,
    find_leaves_out_what_is_matched.2 _ _ _ _ stars isOneLineAt_projectDisk⟩

end Files

end SymbolJump
