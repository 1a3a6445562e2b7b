/-
# Alike values are sorted to one value

A value is written with the fields of every object in the order of their keys. There is one such
order for the fields of an object, as no key comes twice, so by induction two values that are the
same up to the order of fields are sorted to the same value. State files of the one and the other
have the same text.
-/
import SymbolJump.Proofs.StateTexts

namespace SymbolJump.Json

open Text

theorem rel_symm {α : Type} {related : α → α → Prop} {a b : Option α}
    (symm : ∀ x, a = some x → ∀ y, related x y → related y x) (rel : Option.Rel related a b) :
    Option.Rel related b a := by
  cases rel with
  | none => exact .none
  | some here => exact .some (symm _ rfl _ here)

theorem map_eq_of_rel {α β : Type} {related : α → α → Prop} {f : α → β} {a b : Option α}
    (each : ∀ x y, a = some x → b = some y → related x y → f x = f y)
    (rel : Option.Rel related a b) : a.map f = b.map f := by
  cases rel with
  | none => rfl
  | some here => exact congrArg some (each _ _ rfl rfl here)

theorem Alike.symm {τ : Type} [DecidableEq τ] {a b : Json τ} (alike : Alike a b) : Alike b a := by
  induction a using induction generalizing b with
  | list items ih =>
      cases alike with
      | same => exact .same _
      | list alike =>
          apply Alike.list
          induction alike with
          | nil => exact .nil
          | cons here _ rest =>
              obtain ⟨now, later⟩ := List.forall_mem_cons.mp ih
              exact .cons (now here) (rest later)
  | object fields ih =>
      cases alike with
      | same => exact .same _
      | object alike =>
          apply Alike.object
          intro key
          apply rel_symm _ (alike key)
          intro x here y
          exact ih _ (mem_of_get? here)
  | _ =>
      cases alike
      exact .same _

section Sorting

variable {a b : Json Wide}

/-- Fields that are alike are the same when they are sorted, in some order. -/
theorem perm_map_sortKeys {fields others : Fields Wide} (distinct : (fields.map Prod.fst).Nodup)
    (distinct' : (others.map Prod.fst).Nodup)
    (same : ∀ key, (Fields.get? fields key).map sortKeys = (Fields.get? others key).map sortKeys) :
    (fields.map fun field => (field.1, sortKeys field.2)).Perm
      (others.map fun field => (field.1, sortKeys field.2)) := by
  apply perm_of_lookup
  · rwa [List.map_map]
  · rwa [List.map_map]
  · intro key
    have here := same key
    rwa [← get?_map_sortKeys, ← get?_map_sortKeys] at here

theorem precedes_trans (first second third : Wide) (before : precedes first second)
    (later : precedes second third) : precedes first third :=
  areInOrder_trans before later

theorem precedes_total (first second : Wide) : precedes first second || precedes second first := by
  rw [Bool.or_eq_true]
  exact areInOrder_total _ _

theorem precedes_antisymm (first second : Wide) (before : precedes first second)
    (after : precedes second first) : first = second :=
  glyphs_injective (areInOrder_antisymm before after)

/-- Two values that are alike are sorted to the same value. -/
theorem sortKeys_eq_of_alike (alike : Alike a b) (proper : a.IsProper) (proper' : b.IsProper) :
    a.sortKeys = b.sortKeys := by
  induction a using induction generalizing b with
  | list items ih =>
      cases alike with
      | same => rfl
      | @list _ others alike =>
          rw [isProper_list] at proper proper'
          rw [sortKeys, sortKeys, sortKeysOfItems_eq, sortKeysOfItems_eq]
          refine congrArg Json.list ?_
          induction alike with
          | nil => rfl
          | cons here _ rest =>
              obtain ⟨now, later⟩ := List.forall_mem_cons.mp ih
              obtain ⟨first, others⟩ := List.forall_mem_cons.mp proper
              obtain ⟨first', others'⟩ := List.forall_mem_cons.mp proper'
              rw [List.map_cons, List.map_cons, now here first first', rest later others others']
  | object fields ih =>
      cases alike with
      | same => rfl
      | @object _ others alike =>
          obtain ⟨distinct, proper⟩ := isProper_object.mp proper
          obtain ⟨distinct', proper'⟩ := isProper_object.mp proper'
          have same (key : Wide) : (Fields.get? fields key).map sortKeys =
              (Fields.get? others key).map sortKeys := by
            apply map_eq_of_rel _ (alike key)
            intro value value' found found' here
            have member := mem_of_get? found
            have member' := mem_of_get? found'
            exact ih _ member here (proper _ member) (proper' _ member')
          rw [sortKeys, sortKeys, sortKeysOfFields_eq, sortKeysOfFields_eq]
          refine congrArg Json.object (mergeSort_eq_of_perm
            precedes_trans precedes_total precedes_antisymm ?_ ?_)
          · rwa [List.map_map]
          · exact perm_map_sortKeys distinct distinct' same
  | _ =>
      cases alike
      rfl

end Sorting

end SymbolJump.Json

namespace SymbolJump.StateFile

open Json Text

/-- State files of alike values have the same text. -/
theorem render_eq_of_alike {values others : Fields Wide} (proper : (Json.object values).IsProper)
    (proper' : (Json.object others).IsProper)
    (alike : ∀ key, Option.Rel Alike (Fields.get? values key) (Fields.get? others key)) :
    render values = render others := by
  have inner : Alike (.object values) (.object others) := .object alike
  have whole : Alike (document values) (document others) := by
    apply Alike.object
    intro key
    rw [Fields.get?_cons, Fields.get?_cons, Fields.get?_cons, Fields.get?_cons]
    split
    · exact .some (.same _)
    split
    · exact .some inner
    · exact .none
  have sorted := sortKeys_eq_of_alike whole (isProper_document proper) (isProper_document proper')
  rw [render, render, indented, indented, sorted]

end SymbolJump.StateFile
