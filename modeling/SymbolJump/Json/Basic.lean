/-
# Written values

The values that index entries, stored records and the configurations of editors are made of. An
object keeps its fields in the order in which they came, and a field that is set again keeps its
place. Numbers are whole numbers of any size or floating-point numbers; where a number is called
for, the truth values count as one and zero. The texts inside a value are characters, unless the
value stands in a file, where they are wide.
-/
import SymbolJump.Decimal.Double
import SymbolJump.Text.Wide

namespace SymbolJump

open Decimal

/-- A written value, with its texts in some form. -/
inductive Json (τ : Type := String)
  | null
  | bool (value : Bool)
  | int (value : Int)
  | float (value : Floating)
  | text (value : τ)
  | list (items : List (Json τ))
  | object (fields : List (τ × Json τ))

/-- The fields of an object, in order. -/
abbrev Fields (τ : Type := String) := List (τ × Json τ)

variable {τ ρ : Type}

instance : Inhabited (Json τ) := ⟨.null⟩

namespace Json

section DecideEq

variable [DecidableEq τ]

mutual

/-- Equality of values is decidable. -/
def decideEq : (a b : Json τ) → Decidable (a = b)
  | .null, .null => isTrue rfl
  | .bool a, .bool b => decidable_of_iff (a = b) (by simp)
  | .int a, .int b => decidable_of_iff (a = b) (by simp)
  | .float a, .float b => decidable_of_iff (a = b) (by simp)
  | .text a, .text b => decidable_of_iff (a = b) (by simp)
  | .list a, .list b =>
      match decideEqItems a b with
      | isTrue same => isTrue (congrArg Json.list same)
      | isFalse differ => isFalse fun same => differ (Json.list.inj same)
  | .object a, .object b =>
      match decideEqFields a b with
      | isTrue same => isTrue (congrArg Json.object same)
      | isFalse differ => isFalse fun same => differ (Json.object.inj same)
  | .null, .bool _ | .null, .int _ | .null, .float _ | .null, .text _ | .null, .list _
  | .null, .object _ => isFalse nofun
  | .bool _, .null | .bool _, .int _ | .bool _, .float _ | .bool _, .text _ | .bool _, .list _
  | .bool _, .object _ => isFalse nofun
  | .int _, .null | .int _, .bool _ | .int _, .float _ | .int _, .text _ | .int _, .list _
  | .int _, .object _ => isFalse nofun
  | .float _, .null | .float _, .bool _ | .float _, .int _ | .float _, .text _
  | .float _, .list _ | .float _, .object _ => isFalse nofun
  | .text _, .null | .text _, .bool _ | .text _, .int _ | .text _, .float _ | .text _, .list _
  | .text _, .object _ => isFalse nofun
  | .list _, .null | .list _, .bool _ | .list _, .int _ | .list _, .float _ | .list _, .text _
  | .list _, .object _ => isFalse nofun
  | .object _, .null | .object _, .bool _ | .object _, .int _ | .object _, .float _
  | .object _, .text _ | .object _, .list _ => isFalse nofun

/-- Equality of lists of values is decidable. -/
def decideEqItems : (a b : List (Json τ)) → Decidable (a = b)
  | [], [] => isTrue rfl
  | [], _ :: _ => isFalse nofun
  | _ :: _, [] => isFalse nofun
  | x :: xs, y :: ys =>
      match decideEq x y with
      | isFalse differ => isFalse fun same => differ (List.cons.inj same).1
      | isTrue head =>
          match decideEqItems xs ys with
          | isFalse differ => isFalse fun same => differ (List.cons.inj same).2
          | isTrue tail => isTrue (by rw [head, tail])

/-- Equality of lists of fields is decidable. -/
def decideEqFields : (a b : List (τ × Json τ)) → Decidable (a = b)
  | [], [] => isTrue rfl
  | [], _ :: _ => isFalse nofun
  | _ :: _, [] => isFalse nofun
  | (j, x) :: xs, (k, y) :: ys =>
      match decEq j k, decideEq x y with
      | isFalse differ, _ => isFalse fun same => differ (Prod.mk.inj (List.cons.inj same).1).1
      | _, isFalse differ => isFalse fun same => differ (Prod.mk.inj (List.cons.inj same).1).2
      | isTrue key, isTrue value =>
          match decideEqFields xs ys with
          | isFalse differ => isFalse fun same => differ (List.cons.inj same).2
          | isTrue tail => isTrue (by rw [key, value, tail])

end

instance : DecidableEq (Json τ) := decideEq

end DecideEq

mutual

/-- A value with its texts in another form. -/
def map (form : τ → ρ) : Json τ → Json ρ
  | .null => .null
  | .bool value => .bool value
  | .int value => .int value
  | .float value => .float value
  | .text value => .text (form value)
  | .list items => .list (mapItems form items)
  | .object fields => .object (mapFields form fields)

/-- The items of a list with their texts in another form. -/
def mapItems (form : τ → ρ) : List (Json τ) → List (Json ρ)
  | [] => []
  | item :: items => map form item :: mapItems form items

/-- The fields of an object with their texts in another form. -/
def mapFields (form : τ → ρ) : List (τ × Json τ) → List (ρ × Json ρ)
  | [] => []
  | (key, value) :: fields => (form key, map form value) :: mapFields form fields

end

/-- Whether a value counts as given: nothing, no, zero and the empty text, list and object do
not. -/
def isTruthy : Json → Bool
  | .null => false
  | .bool value => value
  | .int value => value != 0
  | .float value => !value.isZero
  | .text value => value != ""
  | .list items => !items.isEmpty
  | .object fields => !fields.isEmpty

/-- The text in a value. -/
def asText? : Json τ → Option τ
  | .text value => some value
  | _ => none

/-- The fields of an object. -/
def asObject? : Json τ → Option (Fields τ)
  | .object fields => some fields
  | _ => none

/-- The sum of a value that counts as a number and a whole number. -/
def addInt? (n : Int) : Json τ → Option (Json τ)
  | .bool value => some (.int ((if value then 1 else 0) + n))
  | .int value => some (.int (value + n))
  | .float value => some (.float (value.addInt n))
  | _ => none

/-- The whole number that a value equals, if it counts as a number. -/
def asInt? : Json τ → Option Int
  | .bool value => some (if value then 1 else 0)
  | .int value => some value
  | .float value => value.toInt?
  | _ => none

/-- A value of a file as it is worked with. Halves of characters are replaced. -/
def mended (value : Json Text.Wide) : Json :=
  value.map fun text => Text.mended (Text.glyphs text)

/-- A value as a file takes it. -/
def widened (value : Json) : Json Text.Wide :=
  value.map Text.wide

/-- A text, or nothing. -/
def ofText? : Option String → Json
  | some value => .text value
  | none => .null

end Json

namespace Fields

variable [DecidableEq τ]

/-- The value of a field. -/
def get? (fields : Fields τ) (key : τ) : Option (Json τ) :=
  fields.lookup key

/-- The value of a field, or null when there is no such field. -/
def getOrNull (fields : Fields τ) (key : τ) : Json τ :=
  (get? fields key).getD .null

/-- The value of a field, or another value when there is no such field. -/
def getOr (fields : Fields τ) (key : τ) (other : Json τ) : Json τ :=
  (get? fields key).getD other

/-- Whether there is a field with the given key. -/
def has (fields : Fields τ) (key : τ) : Bool :=
  (get? fields key).isSome

/-- The fields with one of them set: in its place when it is there, at the end otherwise. -/
def set : Fields τ → τ → Json τ → Fields τ
  | [], key, value => [(key, value)]
  | (k, v) :: rest, key, value =>
      if k = key then (k, value) :: rest else (k, v) :: set rest key value

/-- The fields without one of them. -/
def erase (fields : Fields τ) (key : τ) : Fields τ :=
  fields.filter fun field => field.1 ≠ key

@[simp]
theorem get?_nil (key : τ) : get? [] key = none := rfl

theorem get?_cons (k : τ) (v : Json τ) (rest : Fields τ) (key : τ) :
    get? ((k, v) :: rest) key = if key = k then some v else get? rest key := by
  by_cases same : key = k <;> simp [get?, List.lookup_cons, beq_eq_false_iff_ne.mpr, same]

@[simp]
theorem get?_set_self (fields : Fields τ) (key : τ) (value : Json τ) :
    get? (set fields key value) key = some value := by
  induction fields with
  | nil => simp [set, get?_cons]
  | cons field rest ih =>
      obtain ⟨k, v⟩ := field
      by_cases same : k = key
      · simp [set, same, get?_cons]
      · simp [set, same, get?_cons, ih, Ne.symm same]

theorem get?_set_of_ne (fields : Fields τ) {key other : τ} (value : Json τ)
    (differ : other ≠ key) : get? (set fields key value) other = get? fields other := by
  induction fields with
  | nil => simp [set, get?_cons, differ]
  | cons field rest ih =>
      obtain ⟨k, v⟩ := field
      by_cases same : k = key
      · subst same
        simp [set, get?_cons, differ]
      · simp [set, same, get?_cons, ih]

@[simp]
theorem get?_erase_self (fields : Fields τ) (key : τ) : get? (erase fields key) key = none := by
  induction fields with
  | nil => rfl
  | cons field rest ih =>
      obtain ⟨k, v⟩ := field
      unfold erase at ih ⊢
      by_cases same : k = key
      · simpa [same] using ih
      · simpa [same, get?_cons, Ne.symm same] using ih

theorem get?_erase_of_ne (fields : Fields τ) {key other : τ} (differ : other ≠ key) :
    get? (erase fields key) other = get? fields other := by
  induction fields with
  | nil => rfl
  | cons field rest ih =>
      obtain ⟨k, v⟩ := field
      unfold erase at ih ⊢
      by_cases same : k = key
      · subst same
        simpa [get?_cons, differ] using ih
      · simp only [ne_eq, decide_not] at ih
        simp [same, get?_cons, ih]

end Fields

end SymbolJump
