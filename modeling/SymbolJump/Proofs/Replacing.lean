/-
# Replacing a file

A file is replaced as a whole: bytes are written beside it, and the new file is moved over it. Where
the folder of a path is there, and the path and the one beside it name a file or nothing at all,
both steps succeed, the bytes are what is read from then on, and the file can be replaced again. The
path may also name a link, as long as it leads to no folder: the new file takes the place of the
link.
-/
import SymbolJump.Files.Disk
import SymbolJump.Proofs.Courses
import SymbolJump.Proofs.LinkedFiles

namespace SymbolJump.Files.Disk

open Node

/-- The folder of a path is there. -/
structure HasParent (disk : Disk) (path : String) (left : Nat) (folder : Place) : Prop where
  leads : Leads disk.tree linkLimit (startOf (Path.anchor path) disk.current)
    (Path.components path).dropLast left folder
  holds : disk.tree.HasFolder folder

/-- With a name in place of its last component, a path names a file or nothing at all. -/
structure Offers (disk : Disk) (path : String) (folder : Place) (name : String) : Prop where
  isName : Path.IsName name
  ordinary : IsOrdinary name
  short : (Path.withName path name).utf8ByteSize ≤ pathLimit
  free : IsFreeOrFile (disk.tree.at? (folder ++ [name]))

section Spots

variable {disk : Disk} {path other name : String} {left : Nat} {folder : Place} {tree : Node}

theorem HasParent.keeps (parent : disk.HasParent path left folder) (keeps : Keeps disk.tree tree) :
    HasParent { disk with tree } path left folder :=
  ⟨parent.leads.keeps keeps, keeps.folders _ parent.holds⟩

theorem Offers.after (offers : disk.Offers path folder name)
    (free : IsFreeOrFile (tree.at? (folder ++ [name]))) :
    Offers { disk with tree } path folder name :=
  ⟨offers.isName, offers.ordinary, offers.short, free⟩

theorem HasParent.walk_withName (parent : disk.HasParent path left folder)
    (isName : Path.IsName name) (short : (Path.withName path name).utf8ByteSize ≤ pathLimit)
    (aim : Aim) :
    walk disk.tree disk.current (Path.withName path name) aim =
      walkFrom disk.tree aim left folder [name] := by
  have proper : ∀ other ∈ (Path.components path).dropLast ++ [name], Path.IsName other :=
    fun _ => Path.isName_of_mem_withName isName
  have start := parent.leads.start parent.holds
  rw [Path.withName, walk_assemble (Path.isAnchor_anchor path) proper short start]
  exact parent.leads.walkFrom_append ⟨name, List.mem_singleton_self name, isName.some⟩

theorem HasParent.walk_free (parent : disk.HasParent path left folder)
    (offers : disk.Offers path folder name) (free : disk.tree.at? (folder ++ [name]) = none)
    (aim : Aim) :
    walk disk.tree disk.current (Path.withName path name) aim = .absent folder name [] := by
  rw [parent.walk_withName offers.isName offers.short]
  exact walkFrom_free parent.holds offers.ordinary free

theorem HasParent.walk_file (parent : disk.HasParent path left folder)
    (offers : disk.Offers path folder name) {bytes : List UInt8}
    (file : disk.tree.at? (folder ++ [name]) = some (.file bytes)) (aim : Aim) :
    walk disk.tree disk.current (Path.withName path name) aim = .found (folder ++ [name]) := by
  rw [parent.walk_withName offers.isName offers.short]
  exact walkFrom_file parent.holds offers.ordinary file

/-- What a path names is a file or nothing at all. -/
theorem Offers.cases (offers : disk.Offers path folder name) :
    disk.tree.at? (folder ++ [name]) = none ∨
      ∃ bytes, disk.tree.at? (folder ++ [name]) = some (.file bytes) := by
  have free := offers.free
  cases entry : disk.tree.at? (folder ++ [name]) with
  | none => exact .inl rfl
  | some node =>
      rw [entry] at free
      cases node with
      | file bytes => exact .inr ⟨bytes, rfl⟩
      | _ => exact free.elim

/-- An entry that a path names stands in the folder of the path, a link too. -/
theorem HasParent.entryPlace_withName (parent : disk.HasParent path left folder)
    (isName : Path.IsName name) (ordinary : IsOrdinary name)
    (short : (Path.withName path name).utf8ByteSize ≤ pathLimit)
    (spelled : Path.tidy other = Path.withName path name) :
    disk.entryPlace other = .ok (folder ++ [name], disk.tree.at? (folder ++ [name])) := by
  rw [entryPlace, spelled, parent.walk_withName isName short]
  cases here : disk.tree.at? (folder ++ [name]) with
  | none => rw [walkFrom_free parent.holds ordinary here]
  | some node =>
      rw [walkFrom_entry_last parent.holds ordinary here]
      exact congrArg (fun entry => Except.ok (folder ++ [name], entry)) here

theorem HasParent.entryPlace_eq (parent : disk.HasParent path left folder)
    (offers : disk.Offers path folder name) (spelled : Path.tidy other = Path.withName path name) :
    disk.entryPlace other = .ok (folder ++ [name], disk.tree.at? (folder ++ [name])) :=
  parent.entryPlace_withName offers.isName offers.ordinary offers.short spelled

theorem HasParent.write_eq (parent : disk.HasParent path left folder)
    (offers : disk.Offers path folder name) (spelled : Path.tidy other = Path.withName path name)
    (whole : holdsNull other = false) (bytes : List UInt8) :
    disk.write other bytes =
      .ok { disk with tree := disk.tree.put (folder ++ [name]) (.file bytes) } := by
  rw [write, answered, whole, spelled]
  rcases offers.cases with free | ⟨before, file⟩
  · rw [parent.walk_free offers free]
    rfl
  · rw [parent.walk_file offers file]
    simp only [file]
    rfl

theorem HasParent.resolve_file (parent : disk.HasParent path left folder)
    (offers : disk.Offers path folder name) (spelled : Path.tidy other = Path.withName path name)
    {bytes : List UInt8} (file : disk.tree.at? (folder ++ [name]) = some (.file bytes)) :
    resolve disk.tree disk.current (Path.tidy other) = .ok (folder ++ [name]) := by
  rw [resolve, spelled, parent.walk_file offers file]

end Spots

/-! ## The folder that is there -/

section Folders

variable {disk : Disk} {path : String} {left : Nat} {folder : Place}

theorem holdsNull_parent (whole : holdsNull path = false) :
    holdsNull (Path.parent path) = false := by
  rw [← Bool.not_eq_true, Path.holdsNull_iff] at whole ⊢
  rw [Path.components_parent]
  rintro ⟨name, member, null⟩
  exact whole ⟨name, (List.dropLast_sublist _).subset member, null⟩

/-- A folder that is there is left as it is. -/
theorem HasParent.haveFolder_eq (parent : disk.HasParent path left folder)
    (whole : holdsNull path = false)
    (short : (Path.parent path).utf8ByteSize ≤ pathLimit) :
    disk.haveFolder (Path.parent path) = .ok disk := by
  have start := parent.leads.start parent.holds
  have nulls := holdsNull_parent whole
  have walks (aim : Aim) : walk disk.tree disk.current (Path.tidy (Path.parent path)) aim =
      walkFrom disk.tree aim linkLimit (startOf (Path.anchor path) disk.current)
        (Path.components path).dropLast := by
    rw [Path.tidy_parent]
    exact walk_assemble (Path.isAnchor_anchor path) (fun _ => Path.isName_of_mem_init) short start
  obtain ⟨found, leads, some⟩ := parent.leads.walkFrom_entry parent.holds
  obtain ⟨node, here⟩ := Option.isSome_iff_exists.mp some
  have entry : disk.entryPlace (Path.parent path) = .ok (found, Option.some node) := by
    rw [entryPlace, walks, leads, ← here]
  have occupied : disk.makeFolder (Path.parent path) =
      .error (.file (failure .occupied (Path.parent path))) := by
    rw [makeFolder, answered, nulls, entry]
    rfl
  have isFolder : disk.isFolder (Path.parent path) = .ok true := by
    obtain ⟨entries, stands⟩ := parent.holds
    rw [isFolder, locate?, nulls, resolve, walks, parent.leads.walkFrom_target]
    simp [Except.map, stands, Node.isFolder]
  rw [haveFolder, occupied, isFolder]
  rfl

theorem start_change_of_ok {step : Disk → Except Fault Disk} {after : Disk}
    (course : step disk = .ok after) : (change step).start disk = (.ok (), after) := by
  rw [change, Act.start_bind_of_ok (Act.start_get disk), course]
  rfl

theorem start_change_of_error {step : Disk → Except Fault Disk} {fault : Fault}
    (course : step disk = .error fault) : (change step).start disk = (.error fault, disk) := by
  rw [change, Act.start_bind_of_ok (Act.start_get disk), course]
  rfl

theorem HasParent.start_makeFolders (parent : disk.HasParent path left folder)
    (whole : holdsNull path = false)
    (short : (Path.parent path).utf8ByteSize ≤ pathLimit) :
    (makeFolders (Path.parent path)).start disk = (.ok (), disk) := by
  have kept : (change (·.haveFolder (Path.parent path))).start disk = (.ok (), disk) :=
    start_change_of_ok (parent.haveFolder_eq whole short)
  rw [makeFolders]
  cases (Path.components (Path.parent path)).length with
  | zero => exact kept
  | succ above => rw [makeFoldersUpTo, Act.start_tryCatch, kept]

theorem isSound_makeFolder {after : Disk} (sound : disk.tree.IsSound)
    (course : disk.makeFolder path = .ok after) : after.tree.IsSound := by
  rw [makeFolder, answered] at course
  split at course
  · exact nomatch course
  · split at course
    · exact nomatch course
    · exact nomatch course
    · obtain rfl := Except.ok.inj course
      apply isSound_alter sound
      rintro _ _ ⟨⟩
      exact isSound_folder.mpr ⟨List.nodup_nil, fun _ _ here => nomatch here⟩

theorem haveFolder_eq_ok {after : Disk} (course : disk.haveFolder path = .ok after) :
    disk.makeFolder path = .ok after ∨ after = disk := by
  rw [haveFolder] at course
  split at course
  · next made =>
    cases course
    exact .inl made
  · cases stands : disk.isFolder path with
    | error fault =>
        rw [stands] at course
        exact nomatch course
    | ok stands_ =>
        rw [stands] at course
        simp only [bind, Except.bind] at course
        split at course
        · cases course
          exact .inr rfl
        · exact nomatch course
  · exact nomatch course

/-- An act on a disk leaves a sound tree sound, whether or not it faults. -/
abbrev KeepsSound {α : Type} (act : Act Disk α) : Prop :=
  act.Preserves fun disk => disk.tree.IsSound

theorem keepsSound_change {step : Disk → Except Fault Disk}
    (keeps : ∀ disk after : Disk, disk.tree.IsSound → step disk = .ok after → after.tree.IsSound) :
    KeepsSound (change step) := by
  intro disk sound
  cases course : step disk with
  | error fault =>
      rw [start_change_of_error course]
      exact sound
  | ok after =>
      rw [start_change_of_ok course]
      exact keeps disk after sound course

theorem keepsSound_haveFolder (path : String) : KeepsSound (change (·.haveFolder path)) := by
  apply keepsSound_change
  intro disk after sound course
  rcases haveFolder_eq_ok course with made | rfl
  · exact isSound_makeFolder sound made
  · exact sound

theorem keepsSound_makeFolders (path : String) : KeepsSound (makeFolders path) := by
  rw [makeFolders]
  induction (Path.components path).length generalizing path with
  | zero => exact keepsSound_haveFolder path
  | succ above ih =>
      rw [makeFoldersUpTo]
      apply (keepsSound_haveFolder path).tryCatch
      intro fault
      split
      · exact (ih _).bind fun _ => keepsSound_haveFolder path
      · exact fun _ sound => sound

end Folders

/-! ## Replacing -/

/-- A file can be replaced by way of another name beside it. -/
structure CanReplace (disk : Disk) (path side : String) (left : Nat) (folder : Place) : Prop where
  whole : holdsNull path = false
  named : Path.baseName path ≠ ""
  sound : disk.tree.IsSound
  parent : disk.HasParent path left folder
  target : disk.Offers path folder (Path.baseName path)
  beside : disk.Offers path folder side

/-- A file can take the place of what a path names, a link too, by way of another name beside it. -/
structure CanOverwrite (disk : Disk) (path side : String) (left : Nat) (folder : Place) :
    Prop where
  whole : holdsNull path = false
  named : Path.baseName path ≠ ""
  sound : disk.tree.IsSound
  parent : disk.HasParent path left folder
  ordinary : IsOrdinary (Path.baseName path)
  short : (Path.tidy path).utf8ByteSize ≤ pathLimit
  dead : IsDeadEnd disk.tree folder (Path.baseName path)
  beside : disk.Offers path folder side

section Replace

variable {disk : Disk} {path other side : String} {left : Nat} {folder : Place}

theorem CanReplace.canOverwrite (can : disk.CanReplace path side left folder) :
    disk.CanOverwrite path side left folder where
  whole := can.whole
  named := can.named
  sound := can.sound
  parent := can.parent
  ordinary := can.target.ordinary
  short := Path.tidy_eq_withName can.named ▸ can.target.short
  dead := isDeadEnd_of_isFreeOrFile can.target.ordinary can.target.free
  beside := can.beside

/-- Whatever file comes and goes beside, a file can take the place still. -/
theorem CanOverwrite.alter (can : disk.CanOverwrite path side left folder)
    {change : Option Node → Option Node} (plain : ∀ before, IsFreeOrFile (change before)) :
    CanOverwrite { disk with tree := disk.tree.alter change (folder ++ [side]) }
      path side left folder := by
  obtain ⟨whole, named, sound, parent, ordinary, short, dead, beside⟩ := can
  have free : IsFreeOrFile
      ((disk.tree.alter change (folder ++ [side])).at? (folder ++ [side])) := by
    rw [at?_alter sound parent.holds, if_pos rfl]
    exact plain _
  have puts : ∀ before after, change before = some after → after.IsSound := by
    intro before after changed
    apply isSound_of_isFreeOrFile
    rw [← changed]
    exact plain before
  have unnoticed := keepsBut_of_alter sound parent.holds (not_hasFolder_of_isFreeOrFile free)
  exact
    { whole, named, ordinary, short
      sound := isSound_alter sound _ puts
      parent := parent.keeps (keeps_alter change sound parent.holds beside.free)
      dead := dead.keepsBut unnoticed free
      beside := beside.after free }

/-- A file that took the place can be replaced. -/
theorem CanOverwrite.put (can : disk.CanOverwrite path side left folder) (bytes : List UInt8) :
    CanReplace { disk with tree := disk.tree.put (folder ++ [Path.baseName path]) (.file bytes) }
      path side left folder := by
  obtain ⟨whole, named, sound, parent, ordinary, short, dead, beside⟩ := can
  have plain := dead.plain ordinary parent.holds
  let last := disk.tree.put (folder ++ [Path.baseName path]) (.file bytes)
  have stands (name : String) : last.at? (folder ++ [name]) =
      if name = Path.baseName path then some (.file bytes)
      else disk.tree.at? (folder ++ [name]) := at?_alter sound parent.holds name
  have keeps : KeepsBut (· = folder ++ [Path.baseName path]) disk.tree last :=
    keepsBut_alter _ sound parent.holds plain
  exact
    { whole, named
      sound := by
        apply isSound_alter sound
        rintro _ _ ⟨⟩
        exact isSound_of_isFreeOrFile trivial
      parent := ⟨parent.leads.keepsBut parent.holds keeps dead, keeps.folders _ parent.holds⟩
      target := ⟨Path.isName_baseName named, ordinary, Path.tidy_eq_withName named ▸ short, by
        rw [stands, if_pos rfl]
        trivial⟩
      beside := beside.after (by
        rw [stands]
        split
        · trivial
        · exact beside.free) }

/-- Writing beside succeeds. -/
theorem CanOverwrite.written (can : disk.CanOverwrite path side left folder)
    (spelled : Path.tidy other = Path.withName path side) (whole : holdsNull other = false)
    (bytes : List UInt8) :
    ∃ after : Disk, disk.write other bytes = .ok after ∧
      after.CanOverwrite path side left folder ∧
      after.tree.at? (folder ++ [side]) = some (.file bytes) := by
  refine ⟨_, can.parent.write_eq can.beside spelled whole bytes, ?_, ?_⟩
  · exact can.alter fun _ => trivial
  · exact (at?_alter can.sound can.parent.holds side).trans (if_pos rfl)

theorem holdsNull_append (whole : holdsNull path = false) (also : holdsNull other = false) :
    holdsNull (other ++ path) = false := by
  rw [holdsNull, String.toList_append, List.contains_eq_mem, decide_eq_false_iff_not,
    List.mem_append, not_or]
  rw [holdsNull, List.contains_eq_mem, decide_eq_false_iff_not] at whole also
  exact ⟨also, whole⟩

theorem CanOverwrite.move_eq (can : disk.CanOverwrite path side left folder)
    (spelled : Path.tidy other = Path.withName path side) (whole : holdsNull other = false)
    {bytes : List UInt8} (file : disk.tree.at? (folder ++ [side]) = some (.file bytes)) :
    disk.move other path = .ok { disk with
      tree := (disk.tree.remove (folder ++ [side])).put (folder ++ [Path.baseName path])
        (.file bytes) } := by
  have tidy := Path.tidy_eq_withName can.named
  have origin := can.parent.entryPlace_eq can.beside spelled
  have goal := can.parent.entryPlace_withName (Path.isName_baseName can.named) can.ordinary
    (tidy ▸ can.short) tidy
  rw [file] at origin
  rw [move, answered, holdsNull_append can.whole whole, origin, goal]
  simp only
  rw [if_neg can.ordinary.down]
  cases here : disk.tree.at? (folder ++ [Path.baseName path]) with
  | none => rfl
  | some node =>
      cases node with
      | folder entries =>
          exact absurd ⟨entries, here⟩ (can.dead.plain can.ordinary can.parent.holds)
      | _ => rfl

/-- Moving a file from beside to the path succeeds, and the file can be replaced from then on. -/
theorem CanOverwrite.moved (can : disk.CanOverwrite path side left folder)
    (spelled : Path.tidy other = Path.withName path side) (whole : holdsNull other = false)
    {bytes : List UInt8} (file : disk.tree.at? (folder ++ [side]) = some (.file bytes)) :
    ∃ after : Disk, disk.move other path = .ok after ∧ after.CanReplace path side left folder ∧
      after.tree.at? (folder ++ [Path.baseName path]) = some (.file bytes) := by
  have removed : CanOverwrite { disk with tree := disk.tree.remove (folder ++ [side]) }
      path side left folder := can.alter fun _ => trivial
  refine ⟨_, can.move_eq spelled whole file, removed.put bytes, ?_⟩
  exact (at?_alter removed.sound removed.parent.holds _).trans (if_pos rfl)

/-! ## Reading -/

/-- The bytes of the file are what is read. -/
theorem CanReplace.read_eq (can : disk.CanReplace path side left folder) {bytes : List UInt8}
    (file : disk.tree.at? (folder ++ [Path.baseName path]) = some (.file bytes)) :
    disk.read path = .ok bytes := by
  rw [read, answered, can.whole,
    can.parent.resolve_file can.target (Path.tidy_eq_withName can.named) file]
  simp only
  rw [file]
  rfl

end Replace

/-! ## Disks that offer a file -/

/-- A path names a file or nothing at all, and its folder is there. -/
def IsOffered (disk : Disk) (path : String) : Prop :=
  ∃ place entry, disk.entryPlace path = .ok (place, entry) ∧ IsFreeOrFile entry

section Offered

variable {disk : Disk} {path other name : String} {left : Nat} {folder : Place}

/-- A path that names an entry, or a name that its folder does not have, leads there. -/
theorem arrives_of_entryPlace {place : Place} {entry : Option Node}
    (course : disk.entryPlace path = .ok (place, entry)) :
    Arrives (walk disk.tree disk.current (Path.tidy path) .entry) ∧
      ∀ found, walk disk.tree disk.current (Path.tidy path) .entry = .found found →
        disk.tree.at? found = entry := by
  rw [entryPlace] at course
  split at course
  · exact nomatch course
  · exact nomatch course
  · next walks =>
    rw [walks]
    exact ⟨trivial, fun _ here => nomatch here⟩
  · exact nomatch course
  · next walks =>
    cases course
    rw [walks]
    refine ⟨trivial, ?_⟩
    rintro _ ⟨⟩
    rfl

/-- A path that names a file or nothing at all leads somewhere, and to no folder. -/
theorem IsOffered.arrives (offered : disk.IsOffered path) :
    Arrives (walk disk.tree disk.current (Path.tidy path) .entry) ∧
      ∀ found, walk disk.tree disk.current (Path.tidy path) .entry = .found found →
        IsFreeOrFile (disk.tree.at? found) := by
  obtain ⟨place, entry, course, free⟩ := offered
  obtain ⟨arrives, same⟩ := arrives_of_entryPlace course
  refine ⟨arrives, fun found here => ?_⟩
  rw [same found here]
  exact free

theorem IsOffered.named (offered : disk.IsOffered path) : Path.baseName path ≠ "" := by
  intro unnamed
  obtain ⟨arrives, free⟩ := offered.arrives
  have none : Path.components path = [] := by
    by_contra some
    apply (Path.isName_of_mem_components (List.getLast_mem some)).some
    rwa [Path.baseName, List.getLastD_eq_getLast?, List.getLast?_eq_some_getLast some] at unnamed
  have isAnchor := Path.isAnchor_anchor path
  have proper : ∀ name ∈ ([] : List String), Path.IsName name := List.forall_mem_nil _
  rw [Path.tidy, none] at arrives free
  obtain ⟨short, start⟩ := start_of_arrives isAnchor proper arrives
  apply not_hasFolder_of_isFreeOrFile (free _ _) start
  rw [walk_assemble isAnchor proper short start, walkFrom_nil]

/-- The folder of a path is there when a name in it leads anywhere. -/
theorem exists_hasParent_of_arrives {aim : Aim} (isName : Path.IsName name)
    (arrives : Arrives (walk disk.tree disk.current (Path.withName path name) aim)) :
    (Path.withName path name).utf8ByteSize ≤ pathLimit ∧
      ∃ left folder, disk.HasParent path left folder := by
  have proper : ∀ other ∈ (Path.components path).dropLast ++ [name], Path.IsName other :=
    fun _ => Path.isName_of_mem_withName isName
  have isAnchor := Path.isAnchor_anchor path
  have last : ∃ other ∈ [name], other ≠ "" := ⟨_, List.mem_singleton_self _, isName.some⟩
  obtain ⟨short, start⟩ := start_of_arrives isAnchor proper arrives
  rw [Path.withName, walk_assemble isAnchor proper short start] at arrives
  obtain ⟨left, folder, leads⟩ := exists_leads_of_arrives last arrives
  rw [leads.walkFrom_append last] at arrives
  exact ⟨short, left, folder, leads, hasFolder_of_arrives (List.cons_ne_nil _ _) arrives⟩

/-- The folder of a path is there when the path names a file or nothing at all. -/
theorem IsOffered.hasParent (offered : disk.IsOffered path) :
    ∃ left folder, disk.HasParent path left folder := by
  obtain ⟨arrives, _⟩ := offered.arrives
  rw [Path.tidy_eq_withName offered.named] at arrives
  exact (exists_hasParent_of_arrives (Path.isName_baseName offered.named) arrives).2

theorem HasParent.offers (parent : disk.HasParent path left folder) (isName : Path.IsName name)
    (spelled : Path.tidy other = Path.withName path name) (offered : disk.IsOffered other) :
    disk.Offers path folder name := by
  obtain ⟨arrives, free⟩ := offered.arrives
  rw [spelled] at arrives free
  have proper : ∀ other ∈ (Path.components path).dropLast ++ [name], Path.IsName other :=
    fun _ => Path.isName_of_mem_withName isName
  have short := (start_of_arrives (Path.isAnchor_anchor path) proper arrives).1
  rw [parent.walk_withName isName short] at arrives free
  have named : ¬ IsBlank name := fun blank => blank.elim isName.some isName.other
  have ordinary : IsOrdinary name := isOrdinary_of_arrives parent.holds named arrives
    fun found leads => not_hasFolder_of_isFreeOrFile (free found leads)
  refine ⟨isName, ordinary, short, ?_⟩
  cases here : disk.tree.at? (folder ++ [name]) with
  | none => trivial
  | some node =>
      rw [← here]
      exact free _ (walkFrom_entry_last parent.holds ordinary here)

end Offered

end SymbolJump.Files.Disk
