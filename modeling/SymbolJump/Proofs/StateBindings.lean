/-
# State files as bindings

A state file that can be replaced does what a binding of keys to values does. What is put is what is
read from then on, up to the order of fields; no other key is touched; and null takes a key away, or
does nothing at all where there is none. This holds over every sequence of uses, whatever readable
file it starts from, and however many stores with differently spelled paths share the file.

The file may be left alike and not the same: writing puts the fields of every object in the order of
their keys. So the bindings are compared up to that order throughout, and what is carried from use
to use is that the file can still be replaced and holds the bindings.
-/
import Mathlib.Logic.Function.Basic
import SymbolJump.Proofs.StateFiles

namespace SymbolJump

open Files Json Text

namespace Files.Disk

variable (disk : Disk) (path : String)

theorem locate?_tidy : disk.locate? (Path.tidy path) = disk.locate? path := by
  unfold locate? failure
  rw [Path.holdsNull_tidy, Path.tidy_tidy]

theorem exists?_tidy : disk.exists? (Path.tidy path) = disk.exists? path := by
  rw [exists?, locate?_tidy, exists?]

theorem readText_tidy : disk.readText (Path.tidy path) = disk.readText path := by
  unfold readText read answered failure
  rw [Path.holdsNull_tidy, Path.tidy_tidy]

theorem entryPlace_tidy : disk.entryPlace (Path.tidy path) = disk.entryPlace path := by
  unfold entryPlace
  rw [Path.tidy_tidy]

theorem holdsNull_append_tidy (other : String) :
    holdsNull (other ++ Path.tidy path) = holdsNull (other ++ path) := by
  have split (text : String) : holdsNull (other ++ text) = (holdsNull other || holdsNull text) := by
    simp [holdsNull, Bool.decide_or]
  rw [split, split, Path.holdsNull_tidy]

theorem move_tidy (source : String) :
    disk.move source (Path.tidy path) = disk.move source path := by
  unfold move answered
  rw [holdsNull_append_tidy, entryPlace_tidy, Path.baseName_tidy, Path.tidy_tidy]

end Files.Disk

namespace StateFile

theorem besides_tidy (path : String) : besides (Path.tidy path) = besides path := by
  rw [besides, Path.parent_tidy, Path.baseName_tidy, besides]

theorem contents_tidy (disk : Disk) (path : String) :
    contents disk (Path.tidy path) = contents disk path := by
  unfold contents
  rw [Disk.exists?_tidy, Disk.readText_tidy]

theorem load_tidy (path : String) : load (Path.tidy path) = load path := by
  unfold load
  simp only [contents_tidy, Path.tidy_tidy]

theorem save_tidy (path : String) : save (Path.tidy path) = save path := by
  funext values
  unfold save
  simp only [Path.parent_tidy, Path.baseName_tidy, Path.tidy_tidy, besides_tidy, Disk.move_tidy]

/-- Stores whose paths have one tidy form are the same. -/
theorem store_congr {path other : String} (same : Path.tidy other = Path.tidy path) :
    store other = store path := by
  have tidied (path : String) : store (Path.tidy path) = store path := by
    have gets : get (Path.tidy path) = get path := by
      funext key
      rw [get, load_tidy, get]
    have puts : put (Path.tidy path) = put path := by
      funext key value
      unfold put
      rw [load_tidy, save_tidy]
    rw [store, gets, puts, store]
  rw [← tidied, same, tidied]

/-- What the keys are bound to. -/
abbrev Bindings := Wide → Option (Json Wide)

/-- A use of a store. -/
inductive Use
  | get (key : Wide)
  | put (key : Wide) (value : Json Wide)
deriving DecidableEq

namespace Use

/-- The use of a given store. A value that is put gives no answer. -/
def on (store : Store Machine Wide) : Use → Act Machine (Json Wide)
  | get key => store.get key
  | put key value => do
      store.put key value
      return .null

/-- What the bindings answer. -/
def answer (bindings : Bindings) : Use → Json Wide
  | get key => (bindings key).getD .null
  | put .. => .null

/-- The bindings afterwards. -/
def after (bindings : Bindings) : Use → Bindings
  | get _ => bindings
  | put key .null => Function.update bindings key none
  | put key value => Function.update bindings key (some value)

/-- A use that has nothing to write: a value is read, or a key is deleted that is not there. -/
def IsIdle (bindings : Bindings) : Use → Prop
  | get _ => True
  | put key value => value = .null ∧ bindings key = none

/-- A value that is put can be written and read. -/
def IsProper : Use → Prop
  | get _ => True
  | put _ value => value.IsProper

/-- What the bindings answer to uses in a row. -/
def answers : Bindings → List Use → List (Json Wide)
  | _, [] => []
  | bindings, use :: uses => use.answer bindings :: answers (use.after bindings) uses

end Use

/-- Uses in a row, each of the store of its own path. -/
def perform (uses : List (String × Use)) : Act Machine (List (Json Wide)) :=
  uses.mapM fun (path, use) => use.on (store path)

/-- A state file holds the bindings, up to the order of fields. -/
def Holds (disk : Disk) (path : String) (bindings : Bindings) : Prop :=
  ∃ held, contents disk path = .ok held ∧
    ∀ key, Option.Rel Alike (bindings key) (Fields.get? held.fields key)

theorem holds_of_contents {disk : Disk} {path : String} {held : Contents}
    (inside : contents disk path = .ok held) : Holds disk path (Fields.get? held.fields) := by
  refine ⟨held, inside, fun key => ?_⟩
  cases Fields.get? held.fields key with
  | none => exact .none
  | some value => exact .some (.same value)

/-- The use of a store does to a machine what it does to the bindings of a file, and the file can be
replaced afterwards. -/
structure Serves (path : String) (bindings : Bindings) (store : Store Machine Wide) (use : Use)
    (machine : Machine) (answer : Json Wide) (after : Machine) : Prop where
  course : (use.on store).start machine = (.ok answer, after)
  answers : Alike (use.answer bindings) answer
  holds : Holds after.disk path (use.after bindings)
  replaceable : IsReplaceable after.disk path
  still : use.IsIdle bindings → after.disk = machine.disk

section Serving

variable {machine : Machine} {path : String} {bindings : Bindings}

theorem alike_getD {a b : Option (Json Wide)} (alike : Option.Rel Alike a b) :
    Alike (a.getD .null) (b.getD .null) := by
  cases alike with
  | none => exact .same _
  | some alike => exact alike

theorem isSome_of_rel {a b : Option (Json Wide)} (alike : Option.Rel Alike a b) :
    a.isSome = b.isSome := by
  cases alike <;> rfl

theorem rel_update {values : Fields Wide} (key : Wide) (value : Json Wide)
    (alike : ∀ other, Option.Rel Alike (bindings other) (Fields.get? values other))
    (other : Wide) :
    Option.Rel Alike (Function.update bindings key (some value) other)
      (Fields.get? (values.set key value) other) := by
  by_cases here : other = key
  · subst here
    rw [Function.update_self, Fields.get?_set_self]
    exact .some (.same value)
  · rw [Function.update_of_ne here, Fields.get?_set_of_ne _ _ here]
    exact alike other

theorem rel_update_none {values : Fields Wide} (key : Wide)
    (alike : ∀ other, Option.Rel Alike (bindings other) (Fields.get? values other))
    (other : Wide) :
    Option.Rel Alike (Function.update bindings key none other)
      (Fields.get? (values.erase key) other) := by
  by_cases here : other = key
  · subst here
    rw [Function.update_self, Fields.get?_erase_self]
    exact .none
  · rw [Function.update_of_ne here, Fields.get?_erase_of_ne _ here]
    exact alike other

/-- Values that are saved are what the file holds from then on. -/
theorem exists_start_save_holds (replaceable : IsReplaceable machine.disk path)
    {values : Fields Wide} (proper : (Json.object values).IsProper)
    (alike : ∀ key, Option.Rel Alike (bindings key) (Fields.get? values key)) :
    ∃ after, (save path values).start machine = (.ok (), after) ∧
      IsReplaceable after.disk path ∧ Holds after.disk path bindings := by
  obtain ⟨after, sorted, saves, again, holds, sorts⟩ := exists_start_save replaceable proper
  refine ⟨after, saves, again, .values sorted, holds, fun key => ?_⟩
  exact rel_trans (fun _ _ _ _ => Alike.trans) (alike key) (sorts key)

/-- A value is read. -/
theorem exists_serves_get (replaceable : IsReplaceable machine.disk path)
    (holds : Holds machine.disk path bindings) (key : Wide) :
    ∃ answer after, Serves path bindings (store path) (.get key) machine answer after := by
  obtain ⟨held, inside, alike⟩ := holds
  obtain ⟨after, loads, kept⟩ := exists_start_load inside
  refine ⟨_, after, Act.start_bind_of_ok loads _, alike_getD (alike key), ?_, ?_, fun _ => kept⟩
  · rw [kept]
    exact ⟨held, inside, alike⟩
  · rw [kept]
    exact replaceable

/-- A value that is put is what its key is bound to. -/
theorem exists_start_put (replaceable : IsReplaceable machine.disk path)
    (holds : Holds machine.disk path bindings) (key : Wide) {value : Json Wide}
    (filled : value ≠ .null) (proper : value.IsProper) :
    ∃ after, ((store path).put key value).start machine = (.ok (), after) ∧
      IsReplaceable after.disk path ∧
      Holds after.disk path (Function.update bindings key (some value)) := by
  obtain ⟨held, inside, alike⟩ := holds
  obtain ⟨loaded, loads, kept⟩ := exists_start_load inside
  rw [← kept] at replaceable
  obtain ⟨after, saves, again, holds⟩ := exists_start_save_holds replaceable
    (isProper_set (isProper_of_contents inside) key proper) (rel_update key value alike)
  refine ⟨after, ?_, again, holds⟩
  show (put path key value).start machine = _
  rw [put, Act.start_bind_of_ok loads]
  cases value with
  | null => exact absurd rfl filled
  | _ => exact saves

theorem exists_serves_put (replaceable : IsReplaceable machine.disk path)
    (holds : Holds machine.disk path bindings) (key : Wide) {value : Json Wide}
    (filled : value ≠ .null) (proper : value.IsProper) :
    ∃ answer after, Serves path bindings (store path) (.put key value) machine answer after := by
  obtain ⟨after, puts, again, holds⟩ := exists_start_put replaceable holds key filled proper
  refine ⟨.null, after, Act.start_bind_of_ok puts _, .same _, ?_, again, fun idle => ?_⟩
  · cases value with
    | null => exact absurd rfl filled
    | _ => exact holds
  · exact absurd idle.1 filled

/-- A key is taken away, if it is there. -/
theorem exists_serves_delete (replaceable : IsReplaceable machine.disk path)
    (holds : Holds machine.disk path bindings) (key : Wide) :
    ∃ answer after, Serves path bindings (store path) (.put key .null) machine answer after := by
  obtain ⟨held, inside, alike⟩ := holds
  obtain ⟨loaded, loads, kept⟩ := exists_start_load inside
  have there : held.fields.has key = (bindings key).isSome := (isSome_of_rel (alike key)).symm
  cases bound : bindings key with
  | none =>
      have puts : (put path key .null).start machine = (.ok (), loaded) := by
        rw [put, Act.start_bind_of_ok loads]
        simp [there, bound]
      have same : Function.update bindings key none = bindings := by
        rw [Function.update_eq_self_iff, bound]
      refine ⟨.null, loaded, Act.start_bind_of_ok puts _, .same _, ?_, ?_, fun _ => kept⟩
      · rw [kept, Use.after, same]
        exact ⟨held, inside, alike⟩
      · rw [kept]
        exact replaceable
  | some value =>
      rw [← kept] at replaceable
      obtain ⟨after, saves, again, holds⟩ := exists_start_save_holds replaceable
        (isProper_erase (isProper_of_contents inside) key) (rel_update_none key alike)
      have puts : (put path key .null).start machine = (.ok (), after) := by
        rw [put, Act.start_bind_of_ok loads]
        simpa [there, bound] using saves
      refine ⟨.null, after, Act.start_bind_of_ok puts _, .same _, holds, again, fun idle => ?_⟩
      exact nomatch bound.symm.trans idle.2

/-- From a file that can be replaced and holds the bindings, every use is served. -/
theorem exists_serves (replaceable : IsReplaceable machine.disk path)
    (holds : Holds machine.disk path bindings) {other : String}
    (shared : Path.tidy other = Path.tidy path) {use : Use} (proper : use.IsProper) :
    ∃ answer after, Serves path bindings (store other) use machine answer after := by
  rw [store_congr shared]
  cases use with
  | get key => exact exists_serves_get replaceable holds key
  | put key value =>
      by_cases empty : value = .null
      · subst empty
        exact exists_serves_delete replaceable holds key
      · exact exists_serves_put replaceable holds key empty proper

/-- Every sequence of uses is served. -/
theorem exists_start_perform {uses : List (String × Use)}
    (replaceable : IsReplaceable machine.disk path) (holds : Holds machine.disk path bindings)
    (shared : ∀ use ∈ uses, Path.tidy use.1 = Path.tidy path)
    (proper : ∀ use ∈ uses, use.2.IsProper) :
    ∃ answers after, (perform uses).start machine = (.ok answers, after) ∧
      List.Forall₂ Alike (Use.answers bindings (uses.map Prod.snd)) answers ∧
      Holds after.disk path ((uses.map Prod.snd).foldl Use.after bindings) ∧
      IsReplaceable after.disk path := by
  induction uses generalizing machine bindings with
  | nil => exact ⟨[], machine, rfl, .nil, holds, replaceable⟩
  | cons first uses ih =>
      obtain ⟨other, use⟩ := first
      obtain ⟨sharedHere, sharedLater⟩ := List.forall_mem_cons.mp shared
      obtain ⟨properHere, properLater⟩ := List.forall_mem_cons.mp proper
      obtain ⟨answer, next, serves⟩ := exists_serves replaceable holds sharedHere properHere
      obtain ⟨answers, after, course, alike, holds, replaceable⟩ :=
        ih serves.replaceable serves.holds sharedLater properLater
      refine ⟨answer :: answers, after, ?_, .cons serves.answers alike, holds, replaceable⟩
      rw [perform] at course ⊢
      rw [List.mapM_cons, Act.start_bind_of_ok serves.course, Act.start_bind_of_ok course]
      rfl

end Serving

/-- What is read at the start is what the file holds. -/
theorem exists_contents_of_load {machine : Machine} {path : String} {start : Fields Wide}
    (loads : ((load path).start machine).1 = .ok start) :
    ∃ held, contents machine.disk path = .ok held ∧ held.fields = start := by
  cases inside : contents machine.disk path with
  | error fault =>
      rw [start_load_of_error inside] at loads
      exact nomatch loads
  | ok held =>
      obtain ⟨after, course, _⟩ := exists_start_load inside
      rw [course] at loads
      exact ⟨held, rfl, Except.ok.inj loads⟩

/-- A state file that can be replaced refines the bindings that are read from it at the start. Every
sequence of uses is answered from the bindings and leaves the file holding them, and so is whatever
use comes next; one that has nothing to write leaves the disk as it is. -/
theorem uses_refine_bindings {machine : Machine} {path : String} {start : Fields Wide}
    {uses : List (String × Use)} (replaceable : IsReplaceable machine.disk path)
    (loads : ((load path).start machine).1 = .ok start)
    (shared : ∀ use ∈ uses, Path.tidy use.1 = Path.tidy path)
    (proper : ∀ use ∈ uses, use.2.IsProper) :
    (IsStore machine.disk path start ∨
      start = [] ∧ ∀ values, ¬ IsStore machine.disk path values) ∧
    ∃ answers after, (perform uses).start machine = (.ok answers, after) ∧
      List.Forall₂ Alike (Use.answers (Fields.get? start) (uses.map Prod.snd)) answers ∧
      Holds after.disk path ((uses.map Prod.snd).foldl Use.after (Fields.get? start)) ∧
      ∀ other use, Path.tidy other = Path.tidy path → use.IsProper →
        ∃ answer last, Serves path ((uses.map Prod.snd).foldl Use.after (Fields.get? start))
          (store other) use after answer last := by
  obtain ⟨held, inside, rfl⟩ := exists_contents_of_load loads
  obtain ⟨answers, after, course, alike, holds, replaceable⟩ :=
    exists_start_perform replaceable (holds_of_contents inside) shared proper
  refine ⟨fields_of_contents inside, answers, after, course, alike, holds, ?_⟩
  intro other use same proper
  exact exists_serves replaceable holds same proper

/-- Two spellings of the path of a store that was written by other hands. -/
theorem uses_refine_bindings_of_two_spellings :
    let file := Utf8.encode
      "\x7b\"meta\": \x7b\"schema_version\": 1.0\x7d, \"values\": \x7b\"a\": [1]\x7d\x7d"
    let disk : Disk :=
      { tree := .folder [("w", .folder [("state.json", .file file)])], current := ["w"] }
    let value : Json Wide := .object [("z", .null), ("b", .text "\r\"é")]
    let uses : List (String × Use) :=
      [("/w/state.json", .put "k" value), ("/w/./state.json", .put "a" .null),
        ("/w//state.json", .get "a"), ("/w/state.json", .get "k")]
    ∃ answers after, (perform uses).start { disk } = (.ok answers, after) ∧
      List.Forall₂ Alike [.null, .null, .null, value] answers := by
  intro file disk value uses
  have sound : disk.tree.IsSound := by
    refine Node.isSound_folder_of_mem (by simp) (List.forall_mem_singleton.mpr ?_)
    refine Node.isSound_folder_of_mem (by simp) (List.forall_mem_singleton.mpr ?_)
    exact Node.isSound_of_isFreeOrFile trivial
  have replaceable : IsReplaceable disk "/w/state.json" :=
    { whole := by decide +kernel
      sound
      ready := ⟨disk, rfl, ⟨["w", "state.json"], some (.file file), rfl, trivial⟩,
        ⟨["w", "state.json.tmp"], none, rfl, trivial⟩⟩ }
  have loads : ((load "/w/state.json").start { disk }).1 = .ok [("a", .list [.int 1])] := by
    decide +kernel
  have shared : ∀ use ∈ uses, Path.tidy use.1 = Path.tidy "/w/state.json" := by
    decide +kernel
  have proper : ∀ use ∈ uses, use.2.IsProper := by
    have value : value.IsProper := isProper_object.mpr ⟨by simp, by simp [IsProper]⟩
    simp [uses, Use.IsProper, value, IsProper]
  obtain ⟨_, answers, after, course, alike, _⟩ :=
    uses_refine_bindings replaceable loads shared proper
  exact ⟨answers, after, course, alike⟩

/-- Nothing can be put at a free path while a folder has the name of the file beside it. -/
theorem not_put_beside_folder :
    let disk : Disk := { tree := .folder [("state.json.tmp", .folder [])], current := [] }
    disk.exists? "/state.json" = .ok false ∧
    ((load "/state.json").start { disk }).1 = .ok [] ∧
    ((store "/state.json").put "k" (.int 1)).start { disk } =
      (.error (.file { trouble := .isFolder, path := "/state.json.tmp" }), { disk }) ∧
    (((store "/state.json").get "k").start { disk }).1 = .ok .null :=
  ⟨rfl, rfl, rfl, rfl⟩

end StateFile

end SymbolJump
