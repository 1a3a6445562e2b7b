/-
# Changes to trees

What stands at a place after an entry of the tree was put, taken away or changed. As long as no
folder has a name twice, the changed entry is what was asked for and its neighbours stand as they
did. A change where no folder stands leaves every folder a folder and every other entry as it was.
If what it changed was no link either, whatever path leads through the tree still does.
-/
import SymbolJump.Files.Node
import SymbolJump.Proofs.Cuts

namespace SymbolJump.Files.Node

@[simp]
theorem at?_nil (root : Node) : root.at? [] = some root := by
  cases root <;> rfl

theorem at?_folder_cons (entries : List (String × Node)) (name : String) (place : Place) :
    at? (.folder entries) (name :: place) = (entries.lookup name).bind (at? · place) := rfl

theorem at?_append (root : Node) (place rest : Place) :
    root.at? (place ++ rest) = (root.at? place).bind (at? · rest) := by
  induction place generalizing root with
  | nil => rw [List.nil_append, at?_nil, Option.bind_some]
  | cons name place ih =>
      cases root with
      | folder entries =>
          rw [List.cons_append, at?_folder_cons, at?_folder_cons, Option.bind_assoc]
          exact congrArg _ (funext ih)
      | _ => rfl

/-- A folder stands at a place. -/
def HasFolder (root : Node) (place : Place) : Prop :=
  ∃ entries, root.at? place = some (.folder entries)

/-- A folder stands wherever another entry stands below. -/
theorem HasFolder.of_append {root : Node} {place rest : Place}
    (holds : root.HasFolder (place ++ rest)) : root.HasFolder place := by
  obtain ⟨entries, here⟩ := holds
  rw [at?_append] at here
  obtain ⟨node, there, stands⟩ := Option.bind_eq_some_iff.mp here
  cases node with
  | folder inner => exact ⟨inner, there⟩
  | _ => cases rest <;> nomatch stands

theorem HasFolder.exists_of_nil {root : Node} (holds : root.HasFolder []) :
    ∃ entries, root = .folder entries := by
  obtain ⟨entries, here⟩ := holds
  rw [at?_nil] at here
  exact ⟨entries, Option.some.inj here⟩

theorem HasFolder.exists_of_cons {root : Node} {first : String} {place : Place}
    (holds : root.HasFolder (first :: place)) :
    ∃ outer node, root = .folder outer ∧ outer.lookup first = some node ∧
      node.HasFolder place := by
  obtain ⟨entries, here⟩ := holds
  cases root with
  | folder outer =>
      obtain ⟨node, there, stands⟩ := Option.bind_eq_some_iff.mp here
      exact ⟨outer, node, rfl, there, entries, stands⟩
  | _ => nomatch here

theorem HasFolder.dropLast {root : Node} {place : Place} (holds : root.HasFolder place) :
    root.HasFolder place.dropLast := by
  rcases List.eq_nil_or_concat place with rfl | ⟨outer, last, rfl⟩
  · exact holds
  · rw [List.concat_eq_append] at holds
    rw [List.concat_eq_append, List.dropLast_concat]
    exact holds.of_append

/-- No folder has a name twice. -/
def IsSound (root : Node) : Prop :=
  ∀ place entries, root.at? place = some (.folder entries) → (entries.map Prod.fst).Nodup

theorem isSound_folder {entries : List (String × Node)} :
    IsSound (.folder entries) ↔ (entries.map Prod.fst).Nodup ∧
      ∀ name node, entries.lookup name = some node → node.IsSound := by
  constructor
  · intro sound
    refine ⟨sound [] entries rfl, fun name node here place inner stands => ?_⟩
    apply sound (name :: place) inner
    rw [at?_folder_cons, here, Option.bind_some, stands]
  · rintro ⟨distinct, sound⟩ place inner stands
    cases place with
    | nil =>
        cases stands
        exact distinct
    | cons name place =>
        obtain ⟨node, here, there⟩ := Option.bind_eq_some_iff.mp stands
        exact sound name node here place inner there

theorem IsSound.of_at? {root node : Node} {place : Place} (sound : root.IsSound)
    (here : root.at? place = some node) : node.IsSound := by
  intro below entries stands
  apply sound (place ++ below)
  rw [at?_append, here, Option.bind_some, stands]

/-- A folder of distinct names is sound when all that is in it is. -/
theorem isSound_folder_of_mem {entries : List (String × Node)}
    (distinct : (entries.map Prod.fst).Nodup) (inside : ∀ entry ∈ entries, entry.2.IsSound) :
    IsSound (.folder entries) := by
  refine isSound_folder.mpr ⟨distinct, fun name node here => ?_⟩
  obtain ⟨_, _, rfl, _⟩ := List.lookup_eq_some_iff.mp here
  exact inside (name, node) (by simp)

section AlterEntry

variable {name : String} {change : Option Node → Option Node} {entries : List (String × Node)}

theorem mem_keys_of_mem_alterEntry {other : String}
    (member : other ∈ (alterEntry name change entries).map Prod.fst) :
    other = name ∨ other ∈ entries.map Prod.fst := by
  induction entries with
  | nil =>
      rw [alterEntry] at member
      split at member <;> simp_all
  | cons entry entries ih =>
      obtain ⟨key, node⟩ := entry
      rw [alterEntry] at member
      split at member
      · split at member
        · next same _ _ _ => simpa [same] using member
        · exact .inr (List.mem_cons_of_mem _ member)
      · rcases List.mem_cons.mp member with rfl | there
        · exact .inr List.mem_cons_self
        · exact (ih there).imp_right (List.mem_cons_of_mem _)

theorem nodup_alterEntry (distinct : (entries.map Prod.fst).Nodup) :
    ((alterEntry name change entries).map Prod.fst).Nodup := by
  induction entries with
  | nil =>
      rw [alterEntry]
      split <;> simp
  | cons entry entries ih =>
      obtain ⟨key, node⟩ := entry
      obtain ⟨fresh, distinct⟩ := List.nodup_cons.mp distinct
      rw [alterEntry]
      split
      · next same =>
        split
        · exact List.nodup_cons.mpr ⟨same ▸ fresh, distinct⟩
        · exact distinct
      · next differ =>
        refine List.nodup_cons.mpr ⟨fun member => ?_, ih distinct⟩
        exact (mem_keys_of_mem_alterEntry member).elim differ fresh

theorem lookup_cons (key : String) (node : Node) (entries : List (String × Node)) (other : String) :
    ((key, node) :: entries).lookup other =
      if other = key then some node else entries.lookup other := by
  by_cases same : other = key <;> simp [List.lookup_cons, beq_eq_false_iff_ne.mpr, same]

theorem lookup_of_fresh {key : String} (fresh : key ∉ entries.map Prod.fst) :
    entries.lookup key = none := by
  rw [List.lookup_eq_none_iff]
  rintro ⟨other, node⟩ member
  refine bne_iff_ne.mpr ?_
  rintro rfl
  exact fresh (List.mem_map_of_mem member)

/-- The changed entry is what was asked for, and the others stand as they did. -/
theorem lookup_alterEntry (distinct : (entries.map Prod.fst).Nodup) (other : String) :
    (alterEntry name change entries).lookup other =
      if other = name then change (entries.lookup name) else entries.lookup other := by
  induction entries with
  | nil =>
      rw [alterEntry, List.lookup_nil, List.lookup_nil]
      cases change none <;> simp [lookup_cons]
  | cons entry entries ih =>
      obtain ⟨key, node⟩ := entry
      obtain ⟨fresh, distinct⟩ := List.nodup_cons.mp distinct
      rw [alterEntry, lookup_cons, lookup_cons]
      by_cases same : key = name
      · subst same
        rw [if_pos rfl, if_pos rfl]
        by_cases here : other = key
        · subst here
          cases change (some node) with
          | none => simp [lookup_of_fresh fresh]
          | some changed => simp
        · cases change (some node) <;> simp [lookup_cons, here]
      · rw [if_neg same, if_neg (Ne.symm same), lookup_cons, ih distinct]
        split
        · next here => rw [if_neg (here ▸ same)]
        · rfl

end AlterEntry

section Alter

variable {root : Node} {change : Option Node → Option Node}

theorem alter_cons {place : Place} (some : place ≠ []) (name : String)
    (entries : List (String × Node)) :
    alter change (name :: place) (.folder entries) =
      .folder (alterEntry name
        (fun node => Option.some (alter change place (node.getD (.folder [])))) entries) := by
  cases place with
  | nil => exact absurd rfl some
  | cons next place => rfl

/-- A change keeps a tree sound when what it puts is sound. -/
theorem isSound_alter (sound : root.IsSound) (place : Place)
    (puts : ∀ before after, change before = some after → after.IsSound) :
    (alter change place root).IsSound := by
  induction place generalizing root with
  | nil =>
      rw [alter]
      cases changed : change (some root) with
      | none => exact sound
      | some after => exact puts _ _ changed
  | cons name place ih =>
      cases root with
      | folder entries =>
          obtain ⟨distinct, inside⟩ := isSound_folder.mp sound
          have empty : IsSound (.folder []) :=
            isSound_folder.mpr ⟨List.nodup_nil, fun _ _ here => nomatch here⟩
          -- Whatever is put under the name is sound: what was asked for, or the folder changed.
          suffices next : ∀ inner : Option Node → Option Node,
              (∀ after, inner (entries.lookup name) = some after → after.IsSound) →
                IsSound (.folder (alterEntry name inner entries)) by
            cases place with
            | nil => exact next change (puts _)
            | cons deeper place =>
                refine next _ fun after changed => ?_
                cases changed
                apply ih
                cases here : entries.lookup name with
                | none => exact empty
                | some node => exact inside name node here
          intro inner puts
          refine isSound_folder.mpr ⟨nodup_alterEntry distinct, fun other node here => ?_⟩
          rw [lookup_alterEntry distinct] at here
          split at here
          · exact puts node here
          · exact inside other node here
      | _ => cases place <;> exact sound

variable {folder : Place} {name : String}

/-- In the folder of a change, the changed entry is what was asked for and its neighbours stand as
they did. -/
theorem at?_alter (sound : root.IsSound) (holds : root.HasFolder folder) (other : String) :
    (alter change (folder ++ [name]) root).at? (folder ++ [other]) =
      if other = name then change (root.at? (folder ++ [name]))
      else root.at? (folder ++ [other]) := by
  induction folder generalizing root with
  | nil =>
      obtain ⟨entries, rfl⟩ := holds.exists_of_nil
      have single (entries : List (String × Node)) (name : String) :
          at? (.folder entries) ([] ++ [name]) = entries.lookup name := by
        rw [List.nil_append, at?_folder_cons]
        simp
      have distinct := (isSound_folder.mp sound).1
      rw [single, single]
      exact (single _ _).trans (lookup_alterEntry distinct other)
  | cons first folder ih =>
      obtain ⟨outer, node, rfl, there, stands⟩ := holds.exists_of_cons
      obtain ⟨distinct, inside⟩ := isSound_folder.mp sound
      rw [List.cons_append, List.cons_append, alter_cons (by simp), at?_folder_cons,
        at?_folder_cons, at?_folder_cons, lookup_alterEntry distinct, if_pos rfl, there]
      exact ih (inside first node there) stands

/-- The folder of a change is still one. -/
theorem hasFolder_alter (sound : root.IsSound) (holds : root.HasFolder folder) :
    (alter change (folder ++ [name]) root).HasFolder folder := by
  induction folder generalizing root with
  | nil =>
      obtain ⟨entries, rfl⟩ := holds.exists_of_nil
      exact ⟨_, rfl⟩
  | cons first folder ih =>
      obtain ⟨outer, node, rfl, there, stands⟩ := holds.exists_of_cons
      obtain ⟨distinct, inside⟩ := isSound_folder.mp sound
      rw [HasFolder, List.cons_append, alter_cons (by simp), at?_folder_cons,
        lookup_alterEntry distinct, if_pos rfl, there]
      exact ih (inside first node there) stands

/-- A change is not noticed at a place that is neither below the changed entry nor above it. -/
theorem at?_alter_of_apart (sound : root.IsSound) (holds : root.HasFolder folder) {place : Place}
    (below : ¬ folder ++ [name] <+: place) (above : ¬ place <+: folder) :
    (alter change (folder ++ [name]) root).at? place = root.at? place := by
  induction folder generalizing root place with
  | nil =>
      obtain ⟨entries, rfl⟩ := holds.exists_of_nil
      cases place with
      | nil => exact absurd List.nil_prefix above
      | cons other rest =>
          have differ : other ≠ name := by
            rintro rfl
            exact below (List.prefix_append [other] rest)
          have single : alter change ([] ++ [name]) (.folder entries) =
              .folder (alterEntry name change entries) := rfl
          rw [single, at?_folder_cons, lookup_alterEntry (isSound_folder.mp sound).1,
            if_neg differ, at?_folder_cons]
  | cons first folder ih =>
      obtain ⟨outer, node, rfl, there, stands⟩ := holds.exists_of_cons
      obtain ⟨distinct, inside⟩ := isSound_folder.mp sound
      cases place with
      | nil => exact absurd List.nil_prefix above
      | cons other rest =>
          rw [List.cons_append, alter_cons (by simp), at?_folder_cons, at?_folder_cons,
            lookup_alterEntry distinct]
          split
          · next same =>
            subst same
            rw [List.cons_append, List.cons_prefix_cons, not_and] at below
            rw [List.cons_prefix_cons, not_and] at above
            rw [there]
            exact ih (inside _ node there) stands (below rfl) (above rfl)
          · rfl

end Alter

/-- Whether nothing stands at a place, or a file. -/
def IsFreeOrFile : Option Node → Prop
  | none | some (.file _) => True
  | _ => False

theorem isSound_of_isFreeOrFile {node : Node} (plain : IsFreeOrFile (some node)) :
    node.IsSound := by
  cases node with
  | file bytes =>
      intro place entries stands
      cases place <;> nomatch stands
  | _ => exact plain.elim

theorem not_hasFolder_of_isFreeOrFile {root : Node} {place : Place}
    (free : IsFreeOrFile (root.at? place)) : ¬ root.HasFolder place := by
  rintro ⟨entries, here⟩
  rw [here] at free
  exact free

/-- Every folder of a tree is one of another tree, and every other entry is the same there, unless
it stands at one of some places. -/
structure KeepsBut (apart : Place → Prop) (root after : Node) : Prop where
  folders : ∀ place, root.HasFolder place → after.HasFolder place
  entries : ∀ place node, root.at? place = some node → node.isFolder = false →
    apart place ∨ after.at? place = some node

/-- Every folder of a tree is one of another tree, and every link is the same there. -/
structure Keeps (root after : Node) : Prop where
  folders : ∀ place, root.HasFolder place → after.HasFolder place
  links : ∀ place target, root.at? place = some (.link target) →
    after.at? place = some (.link target)

theorem KeepsBut.trans {apart others : Place → Prop} {root middle after : Node}
    (first : KeepsBut apart root middle) (second : KeepsBut others middle after) :
    KeepsBut (fun place => apart place ∨ others place) root after where
  folders place holds := second.folders place (first.folders place holds)
  entries place node here plain := by
    rcases first.entries place node here plain with there | kept
    · exact .inl (.inl there)
    · exact (second.entries place node kept plain).imp_left .inr

theorem KeepsBut.imp {apart others : Place → Prop} {root after : Node}
    (keeps : KeepsBut apart root after)
    (weaker : ∀ place node, root.at? place = some node → apart place → others place) :
    KeepsBut others root after where
  folders := keeps.folders
  entries place node here plain :=
    (keeps.entries place node here plain).imp_left (weaker place node here)

section Keeping

variable {root after : Node} {change : Option Node → Option Node} {folder : Place} {name : String}

/-- Trees that are the same apart from one entry keep each other's entries apart from that one, if
it is no folder. -/
theorem keepsBut_of_same (holds : root.HasFolder folder) (also : after.HasFolder folder)
    (plain : ¬ root.HasFolder (folder ++ [name]))
    (same : ∀ place, ¬ folder ++ [name] <+: place → ¬ place <+: folder →
      root.at? place = after.at? place) :
    KeepsBut (· = folder ++ [name]) root after := by
  have above {tree : Node} {place : Place} (holds : tree.HasFolder folder)
      (outer : place <+: folder) : tree.HasFolder place := by
    obtain ⟨rest, rfl⟩ := outer
    exact holds.of_append
  constructor
  · intro place stands
    by_cases below : folder ++ [name] <+: place
    · obtain ⟨rest, rfl⟩ := below
      exact absurd stands.of_append plain
    by_cases outer : place <+: folder
    · exact above also outer
    · obtain ⟨entries, here⟩ := stands
      exact ⟨entries, (same place below outer).symm.trans here⟩
  · intro place node here ordinary
    by_cases below : folder ++ [name] <+: place
    · obtain ⟨rest, rfl⟩ := below
      cases rest with
      | nil => exact .inl (List.append_nil _)
      | cons next rest =>
          rw [at?_append] at here
          obtain ⟨outer, there, inside⟩ := Option.bind_eq_some_iff.mp here
          cases outer with
          | folder entries => exact absurd ⟨entries, there⟩ plain
          | _ => nomatch inside
    by_cases outer : place <+: folder
    · obtain ⟨entries, there⟩ := above holds outer
      cases there.symm.trans here
      nomatch ordinary
    · exact .inr ((same place below outer).symm.trans here)

theorem keepsBut_alter (change : Option Node → Option Node) (sound : root.IsSound)
    (holds : root.HasFolder folder) (plain : ¬ root.HasFolder (folder ++ [name])) :
    KeepsBut (· = folder ++ [name]) root (alter change (folder ++ [name]) root) :=
  keepsBut_of_same holds (hasFolder_alter sound holds) plain fun _ below above =>
    (at?_alter_of_apart sound holds below above).symm

theorem keepsBut_of_alter (sound : root.IsSound) (holds : root.HasFolder folder)
    (plain : ¬ (alter change (folder ++ [name]) root).HasFolder (folder ++ [name])) :
    KeepsBut (· = folder ++ [name]) (alter change (folder ++ [name]) root) root :=
  keepsBut_of_same (hasFolder_alter sound holds) holds plain fun _ below above =>
    at?_alter_of_apart sound holds below above

theorem KeepsBut.keeps {place : Place} (keepsBut : KeepsBut (· = place) root after)
    (free : IsFreeOrFile (root.at? place)) : Keeps root after where
  folders := keepsBut.folders
  links other target here := by
    refine (keepsBut.entries other _ here rfl).resolve_left ?_
    rintro rfl
    rw [here] at free
    exact free

/-- A change where nothing stands, or a file, keeps all folders and links. -/
theorem keeps_alter (change : Option Node → Option Node) (sound : root.IsSound)
    (holds : root.HasFolder folder) (free : IsFreeOrFile (root.at? (folder ++ [name]))) :
    Keeps root (alter change (folder ++ [name]) root) :=
  (keepsBut_alter change sound holds (not_hasFolder_of_isFreeOrFile free)).keeps free

end Keeping

end SymbolJump.Files.Node
