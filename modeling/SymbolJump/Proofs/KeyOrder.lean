/-
# The order of fields

Writing a value puts the fields of every object in the order of their keys, and nobody who looks a
field up can tell. Two values are alike when they are the same up to the order of fields, at every
depth. Sorting gives a value that is alike, as long as no object has a key twice.
-/
import Mathlib.Data.List.Forall2
import SymbolJump.Json.Writer
import SymbolJump.Proofs.Cuts

namespace SymbolJump.Json

open Text

variable {τ : Type}

/-- What holds of values without parts, and of lists and objects when it holds of their parts, holds
of all values. -/
@[elab_as_elim]
theorem induction {P : Json τ → Prop} (null : P .null) (bool : ∀ value, P (.bool value))
    (int : ∀ value, P (.int value)) (float : ∀ value, P (.float value))
    (text : ∀ value, P (.text value))
    (list : ∀ items : List (Json τ), (∀ item ∈ items, P item) → P (.list items))
    (object : ∀ fields : Fields τ, (∀ field ∈ fields, P field.2) → P (.object fields))
    (value : Json τ) : P value :=
  @Json.rec τ P (fun items => ∀ item ∈ items, P item) (fun fields => ∀ field ∈ fields, P field.2)
    (fun field => P field.2) null bool int float text list object
    (fun _ member => nomatch member)
    (fun _ _ here later => List.forall_mem_cons.mpr ⟨here, later⟩)
    (fun _ member => nomatch member)
    (fun _ _ here later => List.forall_mem_cons.mpr ⟨here, later⟩)
    (fun _ _ here => here) value

/-- Two values are the same up to the order of fields: objects are when they have the same keys and
what stands under each key is the same. -/
inductive Alike [DecidableEq τ] : Json τ → Json τ → Prop
  | same (value : Json τ) : Alike value value
  | list {a b : List (Json τ)} (items : List.Forall₂ Alike a b) : Alike (.list a) (.list b)
  | object {a b : Fields τ}
      (fields : ∀ key, Option.Rel Alike (Fields.get? a key) (Fields.get? b key)) :
      Alike (.object a) (.object b)

theorem mem_of_get? [DecidableEq τ] {fields : Fields τ} {key : τ} {value : Json τ}
    (here : Fields.get? fields key = some value) : (key, value) ∈ fields := by
  obtain ⟨before, after, rfl, _⟩ := List.lookup_eq_some_iff.mp here
  exact List.mem_append_right _ List.mem_cons_self

theorem forall₂_trans {α : Type} {related : α → α → Prop} {as bs cs : List α}
    (trans : ∀ a ∈ as, ∀ b c, related a b → related b c → related a c)
    (first : List.Forall₂ related as bs) (second : List.Forall₂ related bs cs) :
    List.Forall₂ related as cs := by
  induction first generalizing cs with
  | nil => exact second
  | cons here _ ih =>
      obtain ⟨now, later⟩ := List.forall_mem_cons.mp trans
      cases second with
      | cons next rest => exact .cons (now _ _ here next) (ih later rest)

theorem rel_trans {α : Type} {related : α → α → Prop} {a b c : Option α}
    (trans : ∀ x, a = some x → ∀ y z, related x y → related y z → related x z)
    (first : Option.Rel related a b) (second : Option.Rel related b c) :
    Option.Rel related a c := by
  cases first with
  | none => exact second
  | some first =>
      cases second with
      | some second => exact .some (trans _ rfl _ _ first second)

theorem Alike.trans [DecidableEq τ] {a b c : Json τ} (first : Alike a b) (second : Alike b c) :
    Alike a c := by
  induction a using induction generalizing b c with
  | list items ih =>
      cases first with
      | same => exact second
      | list first =>
          cases second with
          | same => exact .list first
          | list second =>
              exact .list (forall₂_trans (fun a member b c => ih a member) first second)
  | object fields ih =>
      cases first with
      | same => exact second
      | object first =>
          cases second with
          | same => exact .object first
          | object second =>
              refine .object fun key => rel_trans (fun a here b c => ?_) (first key) (second key)
              exact ih _ (mem_of_get? here)
  | _ =>
      cases first
      exact second

mutual

/-- No object in a value has a key twice, and no whole number is too long to be read. -/
def IsProper : Json τ → Prop
  | .int value => value.natAbs < Nat.pow 10 numeralLimit
  | .list items => AreProper items
  | .object fields => (fields.map Prod.fst).Nodup ∧ AreFieldsProper fields
  | .null | .bool _ | .float _ | .text _ => True

/-- All items of a list are proper. -/
def AreProper : List (Json τ) → Prop
  | [] => True
  | item :: items => IsProper item ∧ AreProper items

/-- All values of fields are proper. -/
def AreFieldsProper : List (τ × Json τ) → Prop
  | [] => True
  | (_, value) :: fields => IsProper value ∧ AreFieldsProper fields

end

theorem areProper_iff {items : List (Json τ)} :
    AreProper items ↔ ∀ item ∈ items, IsProper item := by
  induction items with
  | nil => simp [AreProper]
  | cons item items ih => simp [AreProper, ih]

theorem areFieldsProper_iff {fields : Fields τ} :
    AreFieldsProper fields ↔ ∀ field ∈ fields, IsProper field.2 := by
  induction fields with
  | nil => simp [AreFieldsProper]
  | cons field fields ih => simp [AreFieldsProper, ih]

theorem isProper_list {items : List (Json τ)} :
    IsProper (.list items) ↔ ∀ item ∈ items, IsProper item := by
  rw [IsProper, areProper_iff]

theorem isProper_object {fields : Fields τ} :
    IsProper (.object fields) ↔
      (fields.map Prod.fst).Nodup ∧ ∀ field ∈ fields, IsProper field.2 := by
  rw [IsProper, areFieldsProper_iff]

theorem sortKeysOfItems_eq (items : List (Json Wide)) :
    sortKeysOfItems items = items.map sortKeys := by
  induction items with
  | nil => rfl
  | cons item items ih => rw [sortKeysOfItems, ih, List.map_cons]

theorem sortKeysOfFields_eq (fields : Fields Wide) :
    sortKeysOfFields fields = fields.map fun field => (field.1, sortKeys field.2) := by
  induction fields with
  | nil => rfl
  | cons field fields ih => rw [sortKeysOfFields, ih, List.map_cons]

theorem sortByKey_perm (fields : Fields Wide) : (sortByKey fields).Perm fields :=
  List.mergeSort_perm _ _

/-- The fields of a sorted object are sorted values, in some order. -/
theorem sortKeys_object_perm (fields : Fields Wide) :
    ∃ sorted : Fields Wide, sortKeys (.object fields) = .object sorted ∧
      sorted.Perm (fields.map fun field => (field.1, sortKeys field.2)) := by
  refine ⟨_, rfl, ?_⟩
  rw [← sortKeysOfFields_eq]
  exact sortByKey_perm _

theorem get?_map_sortKeys (fields : Fields Wide) (key : Wide) :
    Fields.get? (fields.map fun field => (field.1, sortKeys field.2)) key =
      (Fields.get? fields key).map sortKeys := by
  induction fields with
  | nil => rfl
  | cons field fields ih =>
      rw [List.map_cons, Fields.get?_cons, Fields.get?_cons, ih]
      split <;> rfl

/-- Sorting leaves what stands under a key, sorted itself. -/
theorem get?_of_sortKeys {fields sorted : Fields Wide} (distinct : (fields.map Prod.fst).Nodup)
    (perm : sorted.Perm (fields.map fun field => (field.1, sortKeys field.2))) (key : Wide) :
    Fields.get? sorted key = (Fields.get? fields key).map sortKeys := by
  have keys : ((fields.map fun field => (field.1, sortKeys field.2)).map Prod.fst).Nodup := by
    rwa [List.map_map]
  rw [← get?_map_sortKeys]
  exact (lookup_of_perm perm.symm keys key).symm

/-- A sorted value is alike. -/
theorem alike_sortKeys {value : Json Wide} (proper : value.IsProper) :
    value.Alike value.sortKeys := by
  induction value using induction with
  | list items ih =>
      rw [isProper_list] at proper
      rw [sortKeys, sortKeysOfItems_eq]
      apply Alike.list
      rw [List.forall₂_map_right_iff, List.forall₂_same]
      intro item member
      exact ih item member (proper item member)
  | object fields ih =>
      obtain ⟨distinct, proper⟩ := isProper_object.mp proper
      obtain ⟨sorted, sorts, perm⟩ := sortKeys_object_perm fields
      rw [sorts]
      apply Alike.object
      intro key
      rw [get?_of_sortKeys distinct perm]
      cases here : Fields.get? fields key with
      | none => exact .none
      | some value =>
          have member := mem_of_get? here
          exact .some (ih _ member (proper _ member))
  | _ => exact .same _

theorem isProper_sortKeys {value : Json Wide} (proper : value.IsProper) :
    value.sortKeys.IsProper := by
  induction value using induction with
  | list items ih =>
      rw [isProper_list] at proper
      rw [sortKeys, sortKeysOfItems_eq, isProper_list, List.forall_mem_map]
      intro item member
      exact ih item member (proper item member)
  | object fields ih =>
      obtain ⟨distinct, proper⟩ := isProper_object.mp proper
      obtain ⟨sorted, sorts, perm⟩ := sortKeys_object_perm fields
      rw [sorts, isProper_object, (perm.map Prod.fst).nodup_iff, List.map_map]
      refine ⟨distinct, fun field member => ?_⟩
      obtain ⟨unsorted, there, rfl⟩ := List.mem_map.mp (perm.mem_iff.mp member)
      exact ih unsorted there (proper unsorted there)
  | _ => exact proper

end SymbolJump.Json
