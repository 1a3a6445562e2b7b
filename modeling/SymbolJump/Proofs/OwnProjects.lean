/-
# An opener's own project

A terminal is set up with the path of its project without links, and a request is held against it
as it is spelled. A request for the project is therefore taken up at startup exactly if the spelling
alone shows which folder is meant. That is so when no link is on the way and the path starts with
one slash, or with three or more. Where a link is on the way the spelling may tell of another folder
or of none, and a path that starts with two slashes is taken for another one than with one: such a
request is passed over by the opener that was started for it.
-/
import SymbolJump.Proofs.RealPaths
import SymbolJump.Proofs.Slot
import SymbolJump.Terminal

namespace SymbolJump

open Files Act

/-- A path spells a place out: in its normal form it is the path of the place. -/
structure Path.Spells (path : String) (place : Place) : Prop where
  slash : leadingSlashes path.toList = 1
  names : normalComponents path.toList = place.map String.toList

section Spellings

variable {root : Node} {path : String} {place : Place}

theorem Path.isOpenAmong_pathOf (absolute : isAbsolute path) (clean : IsClean place) :
    isOpenAmong path [pathOf place] ↔ Spells path place := by
  have some : path.toList.isEmpty = false := by
    rw [List.isEmpty_eq_false_iff, ne_eq, String.toList_eq_nil_iff]
    rintro rfl
    exact absurd absolute (by decide)
  have rooted : (pathOf place).toList.isEmpty = false := by
    rw [pathOf, String.toList_append]
    rfl
  have single : isOpenAmong path [pathOf place] ↔ normal (pathOf place) = normal path := by
    simp [isOpenAmong]
  unfold normal at single
  dsimp only at single
  rw [leadingSlashes_pathOf clean, normalComponents_pathOf clean, some, rooted,
    Normal.mk.injEq] at single
  rw [single]
  exact ⟨fun same => ⟨same.1.symm, same.2.1.symm⟩,
    fun spells => ⟨spells.slash.symm, spells.names.symm, rfl⟩⟩

/-- Without a link on the way, what a path leads to is what it spells out. -/
theorem Path.spells_of_straight (slash : leadingSlashes path.toList = 1)
    (straight : Reaches root [] (components path) 0 place) : Spells path place := by
  refine ⟨slash, ?_⟩
  rw [normalComponents_eq, slash]
  have taken := straight.takenIn_eq rfl (List.forall_mem_nil _)
  exact (congrArg List.reverse taken).trans (List.reverse_reverse _)

end Spellings

namespace Opener

open Bench Session

/-- At startup an opener empties the slot and resolves the request that was there, as it would have
had the request been made here. -/
def TakesUp {η : Type} (host : Host η) (window : Window (Bench η)) (request : PendingRequest) :
    Prop :=
  let alone := opening host window.world.settings window.world.host
    ⟨request.symbol, request.hint⟩ none
  let rest := aftermath host alone.2.host alone.1
  ∃ lines, (respond host .startup).start window =
    ((rest.answer (alone.1.map fun _ => Standing.consumed) .consumed).map Answer.standing,
      rest.leave lines { window with
        world := { window.world with
          host := alone.2.host
          calls := window.world.calls ++ [.put Slot.key .null] ++ alone.2.calls
          values := window.world.values.write Slot.key .null }
        standing := .consumed })

/-- At startup an opener leaves the request where it is and does nothing. -/
def PassesOver {η : Type} (host : Host η) (window : Window (Bench η)) : Prop :=
  ∃ lines, (respond host .startup).start window =
    (.ok (.standing .skipped),
      { window with world := { window.world with lines }, standing := .skipped })

theorem takesUp_or_passesOver {η : Type} (host : Host η) (window : Window (Bench η))
    {request : PendingRequest}
    (found : PendingRequest.ofRecord? (window.world.values.getOrNull Slot.key) = some request) :
    (Path.isOpenAmong request.project (host.roots window.world.host) →
      TakesUp host window request) ∧
    (¬ Path.isOpenAmong request.project (host.roots window.world.host) →
      PassesOver host window) := by
  have look : (respond host .startup).start window =
      let drained := (drain (Bench.environment host)).start window
      (drained.1.map Answer.standing, drained.2) := start_respond_of_look rfl window
  constructor
  · intro here
    obtain ⟨lines, course⟩ := start_drain_of_here host window found here
    rw [course] at look
    exact ⟨lines, look⟩
  · intro elsewhere
    obtain ⟨lines, course⟩ := start_drain_of_elsewhere host window found elsewhere
    rw [course] at look
    exact ⟨lines, look⟩

/-- An opener that is started for a folder takes up a request for the same path exactly if the path
spells the folder out, as it does with one slash and no link on the way. -/
theorem startup_at_own_project {disk : Disk} {path : String} {place : Place}
    (shortLinks : HasShortLinks disk.tree) (absolute : Path.isAbsolute path)
    (found : disk.locate? path = .ok (some place)) (holds : disk.tree.HasFolder place)
    (indexPath editorCommand : String) :
    ∃ terminal, Terminal.setUp disk [path] indexPath editorCommand = .ok terminal ∧
      (Path.isOpenAmong path terminal.roots ↔ Path.Spells path place) ∧
      (Path.leadingSlashes path.toList = 1 →
        Reaches disk.tree [] (Path.components path) 0 place → Path.Spells path place) ∧
      ∀ (window : Window (Bench Machine)) (request : PendingRequest),
        PendingRequest.ofRecord? (window.world.values.getOrNull Slot.key) = some request →
        request.project = path →
          (Path.Spells path place → TakesUp terminal.host window request) ∧
          (¬ Path.Spells path place → PassesOver terminal.host window) := by
  obtain ⟨links, -, reaches⟩ := exists_reaches_of_located absolute found holds
  have own := Path.isOpenAmong_pathOf absolute (reaches.isClean (List.forall_mem_nil _))
  have ready : Terminal.setUp disk [path] indexPath editorCommand =
      .ok { roots := [pathOf place], indexPath, editorCommand } := by
    unfold Terminal.setUp
    rw [List.mapM_cons, realPath_of_located shortLinks absolute found holds]
    rfl
  refine ⟨_, ready, own, Path.spells_of_straight, fun window request saved same => ?_⟩
  obtain ⟨takes, passes⟩ := takesUp_or_passesOver
    (Terminal.host { roots := [pathOf place], indexPath, editorCommand }) window saved
  rw [same] at takes passes
  exact ⟨fun spells => takes (own.mpr spells), fun differs => passes (mt own.mp differs)⟩

/-- A folder with a link to it beside it. -/
def linkedDisk : Disk where
  tree := .folder [("link", .link "real"), ("real", .folder [])]
  current := []

/-- A window in which a request waits. -/
def waitingWindow (request : PendingRequest) : Window (Bench Machine) where
  world := {
    host := { disk := linkedDisk }
    settings := .ok Script.settings
    values := [(Slot.key, request.toRecord)] }

theorem hasShortLinks_linkedDisk : HasShortLinks linkedDisk.tree := by
  rintro (_ | ⟨name, rest⟩) target link
  · nomatch link
  rw [linkedDisk, Node.at?] at link
  by_cases first : name = "link"
  · subst first
    cases rest with
    | nil => decide
    | cons => nomatch link
  by_cases second : name = "real"
  · subst second
    cases rest with
    | nil => nomatch link
    | cons => nomatch link
  · rw [List.lookup_cons, beq_false_of_ne first, List.lookup_cons, beq_false_of_ne second] at link
    nomatch link

/-- A request is taken up where its path comes back from behind a link. -/
theorem startup_takesUp_back_from_link :
    ∃ terminal,
      Terminal.setUp linkedDisk ["/link/../real"] ".symbols.json" "code" = .ok terminal ∧
      TakesUp terminal.host (waitingWindow ⟨"f", "/link/../real", none⟩)
        ⟨"f", "/link/../real", none⟩ := by
  have absolute : Path.isAbsolute "/link/../real" := by decide
  have found : linkedDisk.locate? "/link/../real" = .ok (some ["real"]) := by decide +kernel
  obtain ⟨terminal, ready, -, -, startup⟩ := startup_at_own_project hasShortLinks_linkedDisk
    absolute found ⟨[], rfl⟩ ".symbols.json" "code"
  refine ⟨terminal, ready, (startup (waitingWindow ⟨"f", "/link/../real", none⟩) _ ?_ rfl).1 ?_⟩
  · decide +kernel
  · exact ⟨by decide, by decide⟩

/-- A request is passed over by the opener that was started for its project, where the path of both
is a link. -/
theorem startup_passesOver_link :
    ((Terminal.setUp linkedDisk ["/link"] ".symbols.json" "code").map fun terminal =>
      ((respond terminal.host .startup).start (waitingWindow ⟨"f", "/link", none⟩)).1.toOption) =
      .ok (some (.standing .skipped)) := by
  decide +kernel

end Opener

end SymbolJump
