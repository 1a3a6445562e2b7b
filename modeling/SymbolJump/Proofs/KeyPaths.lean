/-
# Values under paths of keys

A path of keys leads from a value through objects to a value inside it. What is said of paths is
said of a value at every depth at once, so the laws of nested mappings are stated over them. A path
ends where an object is only mentioned again: what the object holds is not looked at a second time.
-/
import SymbolJump.Proofs.MergedDetectors

namespace SymbolJump

namespace Mapping

instance (fields : Mapping) : Decidable fields.Distinct :=
  inferInstanceAs (Decidable (List.Pairwise _ _))

variable {fields : Mapping} {key other : Scalar} {value : Value}

/-- Keys that are worth the same lead to the same value. -/
theorem get?_congr (fields : Mapping) (same : key.alike other = true) :
    fields.get? key = fields.get? other := by
  have worth : key.worth = other.worth := of_decide_eq_true same
  simp only [get?, Scalar.alike, worth]

theorem exists_mem_of_get? (found : fields.get? key = some value) :
    ∃ k, (k, value) ∈ fields ∧ k.alike key = true := by
  obtain ⟨⟨k, v⟩, there, rfl⟩ := Option.map_eq_some_iff.mp found
  have alike := List.find?_some there
  exact ⟨k, List.mem_of_find?_eq_some there, alike⟩

theorem alike_eq_false_of_get?_eq_none (missing : fields.get? key = none) :
    ∀ field ∈ fields, field.1.alike key = false := by
  intro field member
  have differ := List.find?_eq_none.mp (Option.map_eq_none_iff.mp missing) field member
  exact eq_false_of_ne_true differ

/-- Setting a field to the value that it has changes nothing. -/
theorem set_of_get? (found : fields.get? key = some value) : fields.set key value = fields := by
  induction fields with
  | nil => nomatch found
  | cons field fields ih =>
      obtain ⟨k, v⟩ := field
      rw [get?_cons] at found
      unfold set
      split
      · next same =>
        rw [if_pos same] at found
        rw [Option.some.inj found]
      · next other =>
        rw [if_neg other] at found
        rw [ih found]

/-- A key that is not there is set at the end. -/
theorem set_of_get?_eq_none (missing : fields.get? key = none) :
    fields.set key value = fields ++ [(key, value)] := by
  induction fields with
  | nil => rfl
  | cons field fields ih =>
      obtain ⟨k, v⟩ := field
      rw [get?_cons] at missing
      unfold set
      split
      · next same =>
        rw [if_pos same] at missing
        exact absurd missing (Option.some_ne_none _)
      · next other =>
        rw [if_neg other] at missing
        rw [ih missing, List.cons_append]

theorem get?_append (front back : Mapping) (key : Scalar) :
    get? (front ++ back) key = (get? front key).or (get? back key) := by
  rw [get?, List.find?_append, Option.map_or, get?, get?]

/-- What holds of a mapping as soon as it holds of the mappings in its fields holds of every
mapping. -/
theorem induction {p : Mapping → Prop}
    (step : ∀ fields : Mapping,
      (∀ key below, fields.get? key = some (.object below) → p below) → p fields)
    (fields : Mapping) : p fields := by
  refine step fields fun key below found => ?_
  obtain ⟨k, member, -⟩ := exists_mem_of_get? found
  have smaller := List.sizeOf_lt_of_mem member
  have inside : sizeOf below < sizeOf (k, Value.object below) := by
    simp only [Prod.mk.sizeOf_spec, Value.object.sizeOf_spec]
    omega
  exact induction step below
termination_by sizeOf fields
decreasing_by exact Nat.lt_trans inside smaller

end Mapping

namespace Value

/-- The value that a path of keys leads to. -/
def at? : Value → List Scalar → Option Value
  | value, [] => some value
  | .object fields, key :: path => (Mapping.get? fields key).bind (at? · path)
  | _, _ :: _ => none

/-- Whether a value is an object, be it one that is mentioned again. -/
def isObject : Value → Bool
  | .object _ | .again false => true
  | _ => false

/-- Whether a value is a list, be it one that is mentioned again. -/
def isList : Value → Bool
  | .list _ | .again true => true
  | _ => false

/-- No object that a path leads to has a key twice. -/
def KeysDiffer (value : Value) : Prop :=
  ∀ path fields, value.at? path = some (.object fields) → Mapping.Distinct fields

variable {fields : Mapping} {key : Scalar} {path : List Scalar} {value inner : Value}

@[simp]
theorem at?_nil (value : Value) : value.at? [] = some value := by
  cases value <;> rfl

@[simp]
theorem at?_object_cons (fields : Mapping) (key : Scalar) (path : List Scalar) :
    (object fields).at? (key :: path) = (fields.get? key).bind (at? · path) := rfl

theorem at?_cons_of_get? (found : fields.get? key = some inner) (path : List Scalar) :
    (object fields).at? (key :: path) = inner.at? path := by
  rw [at?_object_cons, found, Option.bind_some]

theorem at?_singleton (fields : Mapping) (key : Scalar) :
    (object fields).at? [key] = fields.get? key := by
  simp

/-- A path with a first key leads through an object. -/
theorem exists_of_at?_cons (leads : value.at? (key :: path) = some inner) :
    ∃ fields next, value = .object fields ∧ Mapping.get? fields key = some next ∧
      next.at? path = some inner := by
  cases value with
  | object fields =>
      obtain ⟨next, found, leads⟩ := Option.bind_eq_some_iff.mp leads
      exact ⟨fields, next, rfl, found, leads⟩
  | _ => nomatch leads

/-- A path leads to an object only from an object. -/
theorem exists_object_of_at?_object (leads : value.at? path = some (.object fields)) :
    ∃ fields, value = .object fields := by
  cases path with
  | nil => exact ⟨fields, Option.some.inj ((at?_nil _).symm.trans leads)⟩
  | cons key path =>
      obtain ⟨fields, _, rfl, -⟩ := exists_of_at?_cons leads
      exact ⟨fields, rfl⟩

theorem exists_object_of_at?_concat (leads : value.at? (path ++ [key]) = some inner) :
    ∃ fields, value = .object fields := by
  cases path with
  | nil =>
      obtain ⟨fields, _, rfl, -⟩ := exists_of_at?_cons leads
      exact ⟨fields, rfl⟩
  | cons first path =>
      obtain ⟨fields, _, rfl, -⟩ := exists_of_at?_cons leads
      exact ⟨fields, rfl⟩

theorem KeysDiffer.distinct (differ : (object fields).KeysDiffer) : fields.Distinct :=
  differ [] fields (at?_nil _)

theorem KeysDiffer.of_get? (differ : (object fields).KeysDiffer)
    (found : fields.get? key = some inner) : inner.KeysDiffer := by
  intro path below leads
  exact differ (key :: path) below ((at?_cons_of_get? found path).trans leads)

theorem keysDiffer_of_flat (flat : value.isObject = false) : value.KeysDiffer := by
  intro path fields leads
  obtain ⟨fields, rfl⟩ := exists_object_of_at?_object leads
  nomatch flat

theorem keysDiffer_object (distinct : fields.Distinct)
    (inside : ∀ field ∈ fields, field.2.KeysDiffer) : (object fields).KeysDiffer := by
  rintro (_ | ⟨key, path⟩) below leads
  · rw [at?_nil] at leads
    cases Option.some.inj leads
    exact distinct
  · obtain ⟨_, next, ⟨⟩, found, leads⟩ := exists_of_at?_cons leads
    obtain ⟨k, member, -⟩ := Mapping.exists_mem_of_get? found
    exact inside _ member path below leads

end Value

end SymbolJump
