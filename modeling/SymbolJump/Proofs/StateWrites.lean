/-
# What a use writes

A use of a state file has either nothing to write, and then leaves the disk as it is, or it writes
the values that it makes of those that were read. A file that was written is canonical: its text is
that of its values, and it can be written again. This takes no more than that the use came to an end
and that something is read at the path afterwards. If the name beside was a link to another file,
that link is then the state file; the next use that writes puts a file in its place.
-/
import SymbolJump.Proofs.Overwriting
import SymbolJump.Proofs.SortedValues
import SymbolJump.Proofs.StateBindings

namespace SymbolJump

open Files Json Text

namespace Machine

variable {α : Type} {machine after : Machine}

/-- A machine whose folders have no name twice. -/
def IsSound (machine : Machine) : Prop :=
  machine.disk.tree.IsSound

end Machine

namespace Files.Disk

end Files.Disk

namespace StateFile

section Saving

variable {machine after : Machine} {path : String} {values : Fields Wide}

end Saving

namespace Use

/-- The values that a use has to write, where others were read. -/
def writes (values : Fields Wide) : Use → Option (Fields Wide)
  | get _ => none
  | put key value =>
      if value = .null then
        if values.has key then some (values.erase key) else none
      else some (values.set key value)

variable {values others : Fields Wide} {use : Use}

/-- A use that has nothing to write leaves the bindings as they are. -/
theorem IsIdle.after_eq {bindings : Bindings} (idle : use.IsIdle bindings) :
    use.after bindings = bindings := by
  cases use with
  | get key => rfl
  | put key value =>
      obtain ⟨rfl, none⟩ := idle
      exact Function.update_eq_self_iff.mpr none.symm

theorem after_put_of_ne (bindings : Bindings) (key : Wide) {value : Json Wide}
    (filled : value ≠ .null) :
    (put key value).after bindings = Function.update bindings key (some value) := by
  cases value with
  | null => exact absurd rfl filled
  | _ => rfl

theorem get?_set_eq_update (values : Fields Wide) (key : Wide) (value : Json Wide) :
    Fields.get? (values.set key value) =
      Function.update (Fields.get? values) key (some value) := by
  funext other
  by_cases here : other = key
  · subst here
    rw [Fields.get?_set_self, Function.update_self]
  · rw [Fields.get?_set_of_ne _ _ here, Function.update_of_ne here]

theorem get?_erase_eq_update (values : Fields Wide) (key : Wide) :
    Fields.get? (values.erase key) = Function.update (Fields.get? values) key none := by
  funext other
  by_cases here : other = key
  · subst here
    rw [Fields.get?_erase_self, Function.update_self]
  · rw [Fields.get?_erase_of_ne _ here, Function.update_of_ne here]

/-- A use is idle when it has nothing to write, and otherwise writes what the bindings are from
then on. -/
theorem writes_cases (values : Fields Wide) (use : Use) :
    (use.IsIdle (Fields.get? values) ∧ use.writes values = none) ∨
      (¬ use.IsIdle (Fields.get? values) ∧ ∃ others, use.writes values = some others ∧
        Fields.get? others = use.after (Fields.get? values)) := by
  cases use with
  | get key => exact .inl ⟨trivial, rfl⟩
  | put key value =>
      rw [writes]
      split
      · next empty =>
        subst empty
        split
        · next there =>
          refine .inr ⟨?_, _, rfl, get?_erase_eq_update values key⟩
          rintro ⟨-, none⟩
          rw [Fields.has, none] at there
          cases there
        · next missing => exact .inl ⟨⟨rfl, by simpa [Fields.has] using missing⟩, rfl⟩
      · next filled =>
        refine .inr ⟨fun idle => filled idle.1, _, rfl, ?_⟩
        rw [after_put_of_ne _ _ filled, get?_set_eq_update]

theorem isProper_writes (proper : (Json.object values).IsProper) (properUse : use.IsProper)
    (writes : use.writes values = some others) : (Json.object others).IsProper := by
  cases use with
  | get key => cases writes
  | put key value =>
      rw [Use.writes] at writes
      split at writes
      · split at writes
        · cases writes
          exact isProper_erase proper key
        · cases writes
      · cases writes
        exact isProper_set proper key properUse

end Use

section Uses

variable {machine after : Machine} {path other : String} {use : Use} {bindings : Bindings}

/-- A use reads the file and then writes what it has to write. -/
theorem exists_start_on {held : Contents} (inside : contents machine.disk path = .ok held)
    (use : Use) :
    ∃ loaded answer, loaded.disk = machine.disk ∧
      (use.on (store path)).start machine =
        match use.writes held.fields with
        | none => (.ok answer, loaded)
        | some values =>
            (do save path values; return answer : Act Machine (Json Wide)).start loaded := by
  obtain ⟨loaded, loads, kept⟩ := exists_start_load inside
  cases use with
  | get key => exact ⟨loaded, _, kept, Act.start_bind_of_ok loads _⟩
  | put key value =>
      refine ⟨loaded, .null, kept, ?_⟩
      show (do put path key value; return .null : Act Machine (Json Wide)).start machine = _
      rw [put, bind_assoc, Act.start_bind_of_ok loads, Use.writes]
      by_cases empty : value = .null
      · subst empty
        rw [if_pos rfl]
        by_cases there : held.fields.has key
        · simp only [if_pos there]
        · simp only [if_neg there]
          rfl
      · rw [if_neg empty]
        cases value with
        | null => exact absurd rfl empty
        | _ => rfl

/-- A use that has something to write saves it. -/
theorem exists_start_on_of_writes {held : Contents} {values : Fields Wide}
    (inside : contents machine.disk path = .ok held)
    (writes : use.writes held.fields = some values) :
    ∃ loaded answer, loaded.disk = machine.disk ∧ (use.on (store path)).start machine =
      (do save path values; return answer : Act Machine (Json Wide)).start loaded := by
  obtain ⟨loaded, answer, kept, course⟩ := exists_start_on inside use
  rw [writes] at course
  exact ⟨loaded, answer, kept, course⟩

/-- A use that has nothing to write leaves the disk as it is. -/
theorem disk_of_idle {held : Contents} (inside : contents machine.disk path = .ok held)
    (idle : use.IsIdle (Fields.get? held.fields)) :
    ((use.on (store path)).start machine).2.disk = machine.disk := by
  obtain ⟨loaded, answer, kept, course⟩ := exists_start_on inside use
  rcases Use.writes_cases held.fields use with ⟨-, nothing⟩ | ⟨busy, -⟩
  · rw [course, nothing]
    exact kept
  · exact absurd idle busy

end Uses

/-- Whatever values are saved at a path, the save succeeds, their text is what is read from then on,
and the file can be replaced. -/
def CanSave (disk : Disk) (path : String) : Prop :=
  ∀ machine : Machine, machine.disk = disk → ∀ values,
    ∃ after, (save path values).start machine = (.ok (), after) ∧
      IsReplaceable after.disk path ∧
      after.disk.read path = .ok (Utf8.encode (render values))

/-- A state file has the text of values that are what the keys are bound to, and values can be saved
there. -/
structure IsCanonical (disk : Disk) (path : String) (bindings : Bindings) : Prop where
  saves : CanSave disk path
  text : ∃ values, (Json.object values).IsProper ∧
    disk.read path = .ok (Utf8.encode (render values)) ∧
    ∀ key, Option.Rel Alike (bindings key) (Fields.get? values key)

section Canonical

variable {disk : Disk} {machine : Machine} {path : String} {use : Use} {values : Fields Wide}
  {bindings others : Bindings}

theorem IsReplaceable.canSave (replaceable : IsReplaceable disk path) : CanSave disk path := by
  rintro machine rfl values
  exact exists_start_save_read replaceable values

theorem rel_alike_trans {a b c : Option (Json Wide)} (first : Option.Rel Alike a b)
    (second : Option.Rel Alike b c) : Option.Rel Alike a c :=
  rel_trans (fun _ _ _ _ => Alike.trans) first second

theorem rel_alike_refl (a : Option (Json Wide)) : Option.Rel Alike a a := by
  cases a with
  | none => exact .none
  | some value => exact .some (.same value)

theorem IsCanonical.holds (canonical : IsCanonical disk path bindings) :
    Holds disk path bindings := by
  obtain ⟨values, proper, reads, alike⟩ := canonical.text
  obtain ⟨sorted, inside, sorts⟩ := exists_contents_of_render reads proper
  exact ⟨_, inside, fun key => rel_alike_trans (alike key) (sorts key)⟩

/-- Canonical files of alike bindings have the same bytes. -/
theorem IsCanonical.read_eq {disk' : Disk} {path' : String}
    (canonical : IsCanonical disk path bindings) (canonical' : IsCanonical disk' path' others)
    (alike : ∀ key, Option.Rel Alike (bindings key) (others key)) :
    disk.read path = disk'.read path' := by
  obtain ⟨values, proper, reads, ofValues⟩ := canonical.text
  obtain ⟨values', proper', reads', ofValues'⟩ := canonical'.text
  have same (key : Wide) :
      Option.Rel Alike (Fields.get? values key) (Fields.get? values' key) := by
    have back : Option.Rel Alike (Fields.get? values key) (bindings key) :=
      rel_symm (fun _ _ _ => Alike.symm) (ofValues key)
    exact rel_alike_trans back (rel_alike_trans (alike key) (ofValues' key))
  rw [reads, reads', render_eq_of_alike proper proper' same]

/-- Bindings that are alike stay so under a use. -/
theorem rel_after (use : Use)
    (alike : ∀ key, Option.Rel Alike (bindings key) (others key)) (key : Wide) :
    Option.Rel Alike (use.after bindings key) (use.after others key) := by
  have update (other : Wide) (value : Option (Json Wide)) :
      Option.Rel Alike (Function.update bindings other value key)
        (Function.update others other value key) := by
    by_cases here : key = other
    · subst here
      rw [Function.update_self, Function.update_self]
      exact rel_alike_refl value
    · rw [Function.update_of_ne here, Function.update_of_ne here]
      exact alike key
  cases use with
  | get other => exact alike key
  | put other value => cases value <;> exact update other _

/-- A use that has something to write replaces the file by the text of it. -/
theorem exists_start_on_of_canSave {held : Contents} {others : Fields Wide}
    (saves : CanSave machine.disk path) (inside : contents machine.disk path = .ok held)
    (writes : use.writes held.fields = some others) :
    ∃ answer last, (use.on (store path)).start machine = (.ok answer, last) ∧
      IsReplaceable last.disk path ∧
      last.disk.read path = .ok (Utf8.encode (render others)) := by
  obtain ⟨loaded, answer, kept, course⟩ := exists_start_on_of_writes inside writes
  obtain ⟨last, saved, again, reads⟩ := saves loaded kept others
  refine ⟨answer, last, ?_, again, reads⟩
  rw [course, Act.start_bind_of_ok saved]
  rfl

/-- A use leaves a canonical file canonical. -/
theorem IsCanonical.used (canonical : IsCanonical machine.disk path bindings)
    (proper : use.IsProper) :
    IsCanonical ((use.on (store path)).start machine).2.disk path (use.after bindings) := by
  obtain ⟨held, inside, alike⟩ := canonical.holds
  have afterwards := rel_after use alike
  rcases Use.writes_cases held.fields use with ⟨idle, -⟩ | ⟨-, others, writes, ends⟩
  · obtain ⟨values, properValues, reads, ofValues⟩ := canonical.text
    rw [idle.after_eq] at afterwards
    rw [disk_of_idle inside idle]
    refine ⟨canonical.saves, values, properValues, reads, fun key => ?_⟩
    have back := rel_symm (fun _ _ _ => Alike.symm) (alike key)
    exact rel_alike_trans (afterwards key) (rel_alike_trans back (ofValues key))
  · obtain ⟨answer, last, course, again, reads⟩ :=
      exists_start_on_of_canSave canonical.saves inside writes
    have properOthers := Use.isProper_writes (isProper_of_contents inside) proper writes
    rw [course]
    refine ⟨again.canSave, others, properOthers, reads, fun key => ?_⟩
    rw [ends]
    exact afterwards key

end Canonical

end StateFile

end SymbolJump
