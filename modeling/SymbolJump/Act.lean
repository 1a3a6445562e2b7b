/-
# Acts

An act changes a state of some kind and may fault on the way. What it did before it faulted stays
done. An act on part of a larger state is an act on the whole.
-/
import SymbolJump.Fault

namespace SymbolJump

/-- A run that changes a state and may fault. What it did before a fault stays done. -/
abbrev Act (σ : Type) := ExceptT Fault (StateM σ)

namespace Act

/-- Run an act from a state: its answer or its fault, and the state after it. -/
def start {σ α : Type} (act : Act σ α) (state : σ) : Except Fault α × σ :=
  (ExceptT.run act).run state

/-- The act with a given course. -/
def ofCourse {σ α : Type} (course : σ → Except Fault α × σ) : Act σ α :=
  ExceptT.mk fun state => course state

@[simp]
theorem start_ofCourse {σ α : Type} (course : σ → Except Fault α × σ) (state : σ) :
    (ofCourse course).start state = course state := rfl

/-- An answer or a fault that changes nothing. -/
def ofExcept {σ α : Type} (answer : Except Fault α) : Act σ α :=
  ofCourse fun state => (answer, state)

/-- An act on part of a larger state. -/
def onPart {σ τ α : Type} (part : τ → σ) (update : σ → τ → τ) (act : Act σ α) : Act τ α :=
  ofCourse fun whole =>
    let (answer, state) := act.start (part whole)
    (answer, update state whole)

end Act

end SymbolJump
