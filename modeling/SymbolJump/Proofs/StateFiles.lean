/-
# State files on a disk

A state file is replaced by way of another one beside it. All that is asked of a disk is that the
folder of the path is there or can be made, and that the path and the one beside it then name a file
or nothing at all. On such a disk a file is saved without fail, what was saved is what the file
holds, and the disk is as it has to be for the next time.
-/
import SymbolJump.Proofs.Replacing
import SymbolJump.Proofs.StateTexts

namespace SymbolJump

open Files

namespace Machine

variable {α : Type} {machine : Machine}

theorem start_onDisk_of_ok {act : Act Disk α} {answer : α} {disk : Disk}
    (course : act.start machine.disk = (.ok answer, disk)) :
    (onDisk act).start machine = (.ok answer, { machine with disk }) := by
  rw [onDisk, Act.onPart, Act.start_ofCourse, course]

theorem start_ofDisk (answer : Disk → Except Fault α) :
    (ofDisk answer).start machine = (answer machine.disk, machine) := by
  rw [ofDisk, Act.start_bind_of_ok (Act.start_get machine), Act.ofExcept, Act.start_ofCourse]

end Machine

namespace StateFile

open Json Text

section Beside

variable {path : String}

/-- The last component of the path beside. -/
def sideName (path : String) : String :=
  Path.baseName path ++ ".tmp"

theorem isName_sideName (named : Path.baseName path ≠ "") : Path.IsName (sideName path) := by
  have isName := Path.isName_baseName named
  constructor
  · intro empty
    exact named (String.append_eq_empty_iff.mp empty).1
  · intro dot
    have size := congrArg String.utf8ByteSize dot
    rw [sideName, String.utf8ByteSize_append] at size
    have suffix : (".tmp" : String).utf8ByteSize = 4 := rfl
    have single : (".").utf8ByteSize = 1 := rfl
    omega
  · rw [sideName, String.toList_append, List.mem_append, not_or]
    exact ⟨isName.whole, by decide⟩

theorem besides_eq (named : Path.baseName path ≠ "") :
    besides path = Path.withName path (sideName path) :=
  Path.join_parent path (isName_sideName named)

theorem tidy_besides (named : Path.baseName path ≠ "") :
    Path.tidy (besides path) = Path.withName path (sideName path) := by
  rw [besides_eq named, Path.tidy_withName path (isName_sideName named)]

theorem holdsNull_besides (named : Path.baseName path ≠ "")
    (whole : Disk.holdsNull path = false) : Disk.holdsNull (besides path) = false := by
  have proper : ∀ other ∈ (Path.components path).dropLast ++ [sideName path], Path.IsName other :=
    fun _ => Path.isName_of_mem_withName (isName_sideName named)
  rw [← Bool.not_eq_true, Path.holdsNull_iff] at whole
  rw [← Bool.not_eq_true, besides_eq named, Path.withName,
    Path.holdsNull_assemble (Path.isAnchor_anchor path) proper]
  rintro ⟨name, member, null⟩
  apply whole
  rw [Path.components_eq_of_baseName named]
  rcases List.mem_append.mp member with init | last
  · exact ⟨name, List.mem_append_left _ init, null⟩
  · rw [List.mem_singleton.mp last, sideName, String.toList_append, List.mem_append] at null
    have base := null.resolve_right (by decide)
    exact ⟨_, List.mem_append_right _ (List.mem_singleton_self _), base⟩

end Beside

/-- A state file can be replaced: its folder is there or can be made, and then the path and the one
beside it name a file or nothing at all. -/
structure IsReplaceable (disk : Disk) (path : String) : Prop where
  whole : Disk.holdsNull path = false
  sound : disk.tree.IsSound
  ready : ∃ after, (Disk.makeFolders (Path.parent path)).start disk = (.ok (), after) ∧
    after.IsOffered path ∧ after.IsOffered (besides path)

section Replacing

variable {disk : Disk} {path : String}

theorem IsReplaceable.exists_canReplace (replaceable : IsReplaceable disk path) :
    ∃ after left folder, (Disk.makeFolders (Path.parent path)).start disk = (.ok (), after) ∧
      after.CanReplace path (sideName path) left folder := by
  obtain ⟨whole, sound, after, makes, target, beside⟩ := replaceable
  obtain ⟨left, folder, parent⟩ := target.hasParent
  have sound : after.tree.IsSound := by
    have keeps := Disk.keepsSound_makeFolders (Path.parent path) disk sound
    rwa [makes] at keeps
  refine ⟨after, left, folder, makes, ?_⟩
  exact
    { whole, sound, parent
      named := target.named
      target := parent.offers (Path.isName_baseName target.named)
        (Path.tidy_eq_withName target.named) target
      beside := parent.offers (isName_sideName target.named) (tidy_besides target.named) beside }

theorem start_makeFolders_of_hasParent {left : Nat} {folder : Place}
    (parent : disk.HasParent path left folder) (whole : Disk.holdsNull path = false)
    (named : Path.baseName path ≠ "") (short : (Path.tidy path).utf8ByteSize ≤ pathLimit) :
    (Disk.makeFolders (Path.parent path)).start disk = (.ok (), disk) := by
  apply parent.start_makeFolders whole
  rw [Path.tidy_eq_withName named] at short
  exact Nat.le_trans (Path.utf8ByteSize_assemble_le _ _ named) short

/-- Where a file can be replaced, it can be replaced as it is. -/
theorem isReplaceable_of_canReplace {left : Nat} {folder : Place}
    (can : disk.CanReplace path (sideName path) left folder) : IsReplaceable disk path := by
  have tidy := Path.tidy_eq_withName can.named
  have makes :=
    start_makeFolders_of_hasParent can.parent can.whole can.named (tidy ▸ can.target.short)
  refine ⟨can.whole, can.sound, disk, makes, ?_, ?_⟩
  · exact ⟨_, _, can.parent.entryPlace_eq can.target tidy, can.target.free⟩
  · exact ⟨_, _, can.parent.entryPlace_eq can.beside (tidy_besides can.named), can.beside.free⟩

/-- What is in a file that was written as a state file is what it was written for. -/
theorem exists_contents_of_render {values : Fields Wide}
    (reads : disk.read path = .ok (Utf8.encode (render values)))
    (proper : (Json.object values).IsProper) :
    ∃ sorted, contents disk path = .ok (.values sorted) ∧
      ∀ key, Option.Rel Alike (Fields.get? values key) (Fields.get? sorted key) := by
  obtain ⟨sorted, holds, alike⟩ := exists_contentsOf_sortKeys proper
  have writes : written? disk path = some (document values).sortKeys := by
    rw [written?, reads]
    exact ofBytes?_render proper
  exact ⟨sorted, (contents_of_written writes).trans holds, alike⟩

end Replacing

section Acts

variable {machine : Machine} {path : String}

/-- Reading a state file that can be read changes nothing on the disk. -/
theorem exists_start_load {held : Contents} (holds : contents machine.disk path = .ok held) :
    ∃ after, (load path).start machine = (.ok held.fields, after) ∧ after.disk = machine.disk := by
  have reads : (Machine.ofDisk (contents · path)).start machine = (.ok held, machine) := by
    rw [Machine.start_ofDisk, holds]
  rw [load, Act.start_bind_of_ok reads]
  cases held with
  | values found => exact ⟨machine, rfl, rfl⟩
  | unreadable => exact ⟨_, rfl, rfl⟩
  | otherVersion found => exact ⟨_, rfl, rfl⟩

theorem start_load_of_error {fault : Fault} (fails : contents machine.disk path = .error fault) :
    (load path).start machine = (.error fault, machine) := by
  have reads : (Machine.ofDisk (contents · path)).start machine = (.error fault, machine) := by
    rw [Machine.start_ofDisk, fails]
  exact Act.start_bind_of_error reads _

/-- Saving succeeds where a file can take the place of what the path names. The text of the values
is what is read from then on, and the file can be replaced. -/
theorem exists_start_save_of_canOverwrite {made : Disk} {left : Nat} {folder : Place}
    (makes : (Disk.makeFolders (Path.parent path)).start machine.disk = (.ok (), made))
    (can : made.CanOverwrite path (sideName path) left folder) (values : Fields Wide) :
    ∃ after, (save path values).start machine = (.ok (), after) ∧
      IsReplaceable after.disk path ∧
      after.disk.read path = .ok (Utf8.encode (render values)) := by
  have spelled := tidy_besides can.named
  have whole := holdsNull_besides can.named can.whole
  obtain ⟨written, writes, canMove, beside⟩ :=
    can.written spelled whole (Utf8.encode (render values))
  obtain ⟨moved, moves, canAgain, target⟩ := canMove.moved spelled whole beside
  refine ⟨{ machine with disk := moved }, ?_, isReplaceable_of_canReplace canAgain,
    canAgain.read_eq target⟩
  have writing : (Machine.onDisk (Disk.change (·.write (besides path)
      (Utf8.encode (render values))))).start { machine with disk := made } =
        (.ok (), { machine with disk := written }) :=
    Machine.start_onDisk_of_ok (Disk.start_change_of_ok writes)
  have moving : (Machine.onDisk (Disk.change (·.move (besides path) path))).start
      { machine with disk := written } = (.ok (), { machine with disk := moved }) :=
    Machine.start_onDisk_of_ok (Disk.start_change_of_ok moves)
  rw [save, Act.start_bind_of_ok (Machine.start_onDisk_of_ok makes), if_neg can.named]
  exact (Act.start_bind_of_ok writing _).trans moving

/-- Saving a state file that can be replaced succeeds, and the text of the values is what is read
from then on. -/
theorem exists_start_save_read (replaceable : IsReplaceable machine.disk path)
    (values : Fields Wide) :
    ∃ after, (save path values).start machine = (.ok (), after) ∧
      IsReplaceable after.disk path ∧
      after.disk.read path = .ok (Utf8.encode (render values)) := by
  obtain ⟨made, left, folder, makes, can⟩ := replaceable.exists_canReplace
  exact exists_start_save_of_canOverwrite makes can.canOverwrite values

/-- What was saved is what the file holds. -/
theorem exists_start_save (replaceable : IsReplaceable machine.disk path) {values : Fields Wide}
    (proper : (Json.object values).IsProper) :
    ∃ after sorted, (save path values).start machine = (.ok (), after) ∧
      IsReplaceable after.disk path ∧ contents after.disk path = .ok (.values sorted) ∧
        ∀ key, Option.Rel Alike (Fields.get? values key) (Fields.get? sorted key) := by
  obtain ⟨after, saves, again, reads⟩ := exists_start_save_read replaceable values
  obtain ⟨sorted, holds, alike⟩ := exists_contents_of_render reads proper
  exact ⟨after, sorted, saves, again, holds, alike⟩

end Acts

end StateFile

end SymbolJump
