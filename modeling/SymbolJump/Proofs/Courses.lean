/-
# Courses of acts

The course of an act is settled by the courses of its parts: a fault ends it where it arises,
with all that was done before. The first half of this module says so for each way in which acts
are put together.

The second half compares acts on different states. Two acts simulate each other along a relation
between their states when, from related states, they give the same answer or fault and leave
related states behind. Nothing is asked of unrelated states, so a relation may carry an
invariant of either side, and what a larger state keeps on the side can be forgotten.
-/
import SymbolJump.Act

namespace SymbolJump

/-- A chain of answers comes to something only when each of its parts does. -/
theorem exists_of_bind_eq_ok {ε α β : Type} {first : Except ε α} {next : α → Except ε β}
    {answer : β} (course : (first >>= next) = .ok answer) :
    ∃ value, first = .ok value ∧ next value = .ok answer := by
  cases first with
  | error fault => cases course
  | ok value => exact ⟨value, rfl, course⟩

namespace Act

variable {σ τ α β : Type}

@[simp]
theorem start_pure (answer : α) (state : σ) :
    (pure answer : Act σ α).start state = (.ok answer, state) := rfl

@[simp]
theorem start_throw (fault : Fault) (state : σ) :
    (throw fault : Act σ α).start state = (.error fault, state) := rfl

@[simp]
theorem start_get (state : σ) : (get : Act σ σ).start state = (.ok state, state) := rfl

/-- A sequence goes on from the answer of its first part, or ends with its fault. -/
theorem start_bind (act : Act σ α) (next : α → Act σ β) (state : σ) :
    (act >>= next).start state =
      match act.start state with
      | (.ok answer, after) => (next answer).start after
      | (.error fault, after) => (.error fault, after) := by
  unfold start ExceptT.run StateT.run
  simp only [bind, ExceptT.bind, ExceptT.mk, StateT.bind, ExceptT.bindCont]
  rcases act state with ⟨_ | _, after⟩ <;> rfl

theorem start_bind_of_ok {act : Act σ α} {state after : σ} {answer : α}
    (course : act.start state = (.ok answer, after)) (next : α → Act σ β) :
    (act >>= next).start state = (next answer).start after := by
  rw [start_bind, course]

theorem start_bind_of_error {act : Act σ α} {state after : σ} {fault : Fault}
    (course : act.start state = (.error fault, after)) (next : α → Act σ β) :
    (act >>= next).start state = (.error fault, after) := by
  rw [start_bind, course]

theorem start_bind_pure (act : Act σ α) (f : α → β) (state : σ) :
    (do return f (← act) : Act σ β).start state =
      ((act.start state).1.map f, (act.start state).2) := by
  rw [start_bind]
  rcases act.start state with ⟨fault | answer, after⟩ <;> rfl

/-- A guarded act goes on from its fault, with all that was done before it. -/
theorem start_tryCatch (act : Act σ α) (handler : Fault → Act σ α) (state : σ) :
    (tryCatch act handler : Act σ α).start state =
      match act.start state with
      | (.ok answer, after) => (.ok answer, after)
      | (.error fault, after) => (handler fault).start after := by
  unfold start ExceptT.run StateT.run
  simp only [tryCatch, tryCatchThe, MonadExceptOf.tryCatch, ExceptT.tryCatch, ExceptT.mk, bind,
    StateT.bind]
  rcases act state with ⟨_ | _, after⟩ <;> rfl

/-- An act preserves a property of states, whether or not it faults. -/
def Preserves (holds : σ → Prop) (act : Act σ α) : Prop :=
  ∀ state, holds state → holds (act.start state).2

theorem Preserves.bind {holds : σ → Prop} {act : Act σ α} {next : α → Act σ β}
    (first : Preserves holds act) (rest : ∀ answer, Preserves holds (next answer)) :
    Preserves holds (act >>= next) := by
  intro state here
  have middle := first state here
  rw [start_bind]
  rcases course : act.start state with ⟨fault | answer, after⟩
  · rwa [course] at middle
  · rw [course] at middle
    exact rest answer after middle

theorem Preserves.tryCatch {holds : σ → Prop} {act : Act σ α} {handler : Fault → Act σ α}
    (first : Preserves holds act) (rest : ∀ fault, Preserves holds (handler fault)) :
    Preserves holds (MonadExcept.tryCatch act handler) := by
  intro state here
  have middle := first state here
  rw [start_tryCatch]
  rcases course : act.start state with ⟨fault | answer, after⟩
  · rw [course] at middle
    exact rest fault after middle
  · rwa [course] at middle

/-- From related states, two acts give the same answer or fault and leave related states. -/
def Simulates (related : σ → τ → Prop) (first : Act σ α) (second : Act τ α) : Prop :=
  ∀ ⦃s t⦄, related s t →
    (first.start s).1 = (second.start t).1 ∧ related (first.start s).2 (second.start t).2

variable {related : σ → τ → Prop}

theorem simulates_pure (answer : α) :
    Simulates related (pure answer) (pure answer) :=
  fun _ _ here => ⟨rfl, here⟩

theorem simulates_throw (fault : Fault) :
    Simulates related (throw fault : Act σ α) (throw fault) :=
  fun _ _ here => ⟨rfl, here⟩

theorem simulates_modify {change : σ → σ} {other : τ → τ}
    (keeps : ∀ {s t}, related s t → related (change s) (other t)) :
    Simulates related (modify change : Act σ Unit) (modify other) :=
  fun _ _ here => ⟨rfl, keeps here⟩

/-- What is read of related states may differ; what is done with it must not. -/
theorem simulates_get_bind {next : σ → Act σ α} {other : τ → Act τ α}
    (same : ∀ {s t}, related s t → Simulates related (next s) (other t)) :
    Simulates related (get >>= next) (get >>= other) := by
  intro s t here
  rw [start_bind_of_ok (start_get s), start_bind_of_ok (start_get t)]
  exact same here here

theorem Simulates.bind {first : Act σ α} {second : Act τ α} {next : α → Act σ β}
    {other : α → Act τ β}
    (same : Simulates related first second)
    (rest : ∀ answer, Simulates related (next answer) (other answer)) :
    Simulates related (first >>= next) (second >>= other) := by
  intro s t here
  obtain ⟨answers, after⟩ := same here
  rw [start_bind, start_bind]
  rcases hfirst : first.start s with ⟨answer, s'⟩
  rcases hsecond : second.start t with ⟨answer', t'⟩
  rw [hfirst, hsecond] at answers after
  subst answers
  cases answer with
  | error fault => exact ⟨rfl, after⟩
  | ok answer => exact rest answer after

theorem Simulates.tryCatch {first : Act σ α} {second : Act τ α} {handler : Fault → Act σ α}
    {other : Fault → Act τ α} (same : Simulates related first second)
    (rest : ∀ fault, Simulates related (handler fault) (other fault)) :
    Simulates related (MonadExcept.tryCatch first handler)
      (MonadExcept.tryCatch second other) := by
  intro s t here
  obtain ⟨answers, after⟩ := same here
  rw [start_tryCatch, start_tryCatch]
  rcases hfirst : first.start s with ⟨answer, s'⟩
  rcases hsecond : second.start t with ⟨answer', t'⟩
  rw [hfirst, hsecond] at answers after
  subst answers
  cases answer with
  | error fault => exact rest fault after
  | ok answer => exact ⟨rfl, after⟩

end Act

end SymbolJump
