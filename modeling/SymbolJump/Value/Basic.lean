/-
# Values

The values that configurations are made of: scalars, lists, sets and objects. A key of an object
may be any scalar, and two keys are the same when they are worth the same: a number is worth what
it counts, however it is written, and the truth values count as one and zero. A field that is set
again keeps its place and its key. A list or an object may hold itself; where it comes up again
inside itself, it is only mentioned. Of dates and other values that no setting is made for only
that is kept which can be asked of them.
-/
import SymbolJump.Decimal.Text
import SymbolJump.Json.Basic

namespace SymbolJump

open Decimal

/-- A value of a type that no setting is made for, such as a date or a pair. -/
structure Foreign where
  typeName : String
  /-- What tells it apart from others. -/
  worth : String
  /-- How messages show it. -/
  shown : String
  /-- How it stands for a word. -/
  worded : String
  /-- Whether no number in it is too long to be shown. -/
  isShowable : Bool := true
deriving DecidableEq

/-- A value without parts. -/
inductive Scalar
  | null
  | bool (value : Bool)
  | int (value : Int)
  | float (value : Floating)
  | text (value : String)
  | bytes (value : List UInt8)
  | foreign (value : Foreign)
deriving DecidableEq

namespace Scalar

instance : Coe String Scalar := ⟨text⟩

/-- What tells scalars apart. -/
inductive Worth
  | nothing
  | amount (units : Int)
  | boundless (negative : Bool)
  | unknown
  | word (text : String)
  | octets (value : List UInt8)
  | other (worth : String)
deriving DecidableEq

/-- What a scalar is worth. -/
def worth : Scalar → Worth
  | null => .nothing
  | bool value => .amount (if value then unitsPerOne else 0)
  | int value => .amount (value * unitsPerOne)
  | float (.finite value) => .amount value.signedUnits
  | float (.infinite negative) => .boundless negative
  | float .nan => .unknown
  | text value => .word value
  | bytes value => .octets value
  | foreign value => .other value.worth

/-- Whether two scalars are worth the same. -/
def alike (a b : Scalar) : Bool :=
  a.worth = b.worth

@[simp]
theorem alike_self (a : Scalar) : alike a a = true := by
  simp [alike]

/-- Whether a scalar counts as given. -/
def isTruthy : Scalar → Bool
  | null => false
  | bool value => value
  | int value => value != 0
  | float value => !value.isZero
  | text value => value != ""
  | bytes value => !value.isEmpty
  | foreign _ => true

end Scalar

/-- A value of a configuration. -/
inductive Value
  | scalar (value : Scalar)
  | list (items : List Value)
  /-- The items are in the order in which one comes across them. -/
  | set (items : List Scalar)
  | object (fields : List (Scalar × Value))
  /-- A list or an object around this value, mentioned again. -/
  | again (isList : Bool)

/-- The fields of an object, in order. -/
abbrev Mapping := List (Scalar × Value)

namespace Value

/-- Nothing, as a value. -/
@[match_pattern]
abbrev null : Value := .scalar .null

/-- A whole number as a value. -/
@[match_pattern]
abbrev int (value : Int) : Value := .scalar (.int value)

/-- A text as a value. -/
@[match_pattern]
abbrev text (value : String) : Value := .scalar (.text value)

instance : Inhabited Value := ⟨.null⟩

mutual

/-- Equality of values is decidable. -/
def decideEq : (a b : Value) → Decidable (a = b)
  | .scalar a, .scalar b => decidable_of_iff (a = b) (by simp)
  | .again a, .again b => decidable_of_iff (a = b) (by simp)
  | .set a, .set b => decidable_of_iff (a = b) (by simp)
  | .list a, .list b =>
      match decideEqItems a b with
      | isTrue same => isTrue (congrArg Value.list same)
      | isFalse differ => isFalse fun same => differ (Value.list.inj same)
  | .object a, .object b =>
      match decideEqFields a b with
      | isTrue same => isTrue (congrArg Value.object same)
      | isFalse differ => isFalse fun same => differ (Value.object.inj same)
  | .scalar _, .list _ | .scalar _, .set _ | .scalar _, .object _ | .scalar _, .again _
  | .list _, .scalar _ | .list _, .set _ | .list _, .object _ | .list _, .again _
  | .set _, .scalar _ | .set _, .list _ | .set _, .object _ | .set _, .again _
  | .object _, .scalar _ | .object _, .list _ | .object _, .set _ | .object _, .again _
  | .again _, .scalar _ | .again _, .list _ | .again _, .set _ | .again _, .object _ =>
      isFalse nofun

/-- Equality of lists of values is decidable. -/
def decideEqItems : (a b : List Value) → Decidable (a = b)
  | [], [] => isTrue rfl
  | [], _ :: _ => isFalse nofun
  | _ :: _, [] => isFalse nofun
  | x :: xs, y :: ys =>
      match decideEq x y with
      | isFalse differ => isFalse fun same => differ (List.cons.inj same).1
      | isTrue head =>
          match decideEqItems xs ys with
          | isFalse differ => isFalse fun same => differ (List.cons.inj same).2
          | isTrue tail => isTrue (by rw [head, tail])

/-- Equality of lists of fields is decidable. -/
def decideEqFields : (a b : List (Scalar × Value)) → Decidable (a = b)
  | [], [] => isTrue rfl
  | [], _ :: _ => isFalse nofun
  | _ :: _, [] => isFalse nofun
  | (j, x) :: xs, (k, y) :: ys =>
      match decEq j k, decideEq x y with
      | isFalse differ, _ => isFalse fun same => differ (Prod.mk.inj (List.cons.inj same).1).1
      | _, isFalse differ => isFalse fun same => differ (Prod.mk.inj (List.cons.inj same).1).2
      | isTrue key, isTrue value =>
          match decideEqFields xs ys with
          | isFalse differ => isFalse fun same => differ (List.cons.inj same).2
          | isTrue tail => isTrue (by rw [key, value, tail])

end

instance : DecidableEq Value := decideEq

/-- Whether a value counts as given: nothing, no, zero and the empty text, list, set and object do
not. -/
def isTruthy : Value → Bool
  | .scalar value => value.isTruthy
  | .list items => !items.isEmpty
  | .set items => !items.isEmpty
  | .object fields => !fields.isEmpty
  | .again _ => true

/-- The text in a value. -/
def asText? : Value → Option String
  | .text value => some value
  | _ => none

mutual

/-- Whether two values are the same: scalars by what they are worth, lists item by item, and
sets and objects by what they hold in any order. -/
def alike : Value → Value → Bool
  | .scalar a, .scalar b => a.alike b
  | .list a, .list b => alikeItems a b
  | .set a, .set b => a.length == b.length && a.all fun x => b.any x.alike
  | .object a, .object b => a.length == b.length && alikeFields a b
  | _, _ => false

/-- Whether two lists are the same item by item. -/
def alikeItems : List Value → List Value → Bool
  | [], [] => true
  | a :: as, b :: bs => alike a b && alikeItems as bs
  | _, _ => false

/-- Whether every field has a partner of the same key and value. -/
def alikeFields : List (Scalar × Value) → List (Scalar × Value) → Bool
  | [], _ => true
  | (key, value) :: rest, others =>
      (match others.find? fun other => other.1.alike key with
        | some other => alike value other.2
        | none => false) && alikeFields rest others

end

/-- Whether two values are equal: what is no number does not even equal itself. -/
def equals (a b : Value) : Bool :=
  a.alike b && a != .scalar (.float .nan)

end Value

namespace Mapping

/-- The value of a field. -/
def get? (fields : Mapping) (key : Scalar) : Option Value :=
  (fields.find? fun field => field.1.alike key).map Prod.snd

/-- The value of a field, or null when there is no such field. -/
def getOrNull (fields : Mapping) (key : Scalar) : Value :=
  (get? fields key).getD .null

/-- The value of a field, or another value when there is no such field. -/
def getOr (fields : Mapping) (key : Scalar) (other : Value) : Value :=
  (get? fields key).getD other

/-- The fields with one of them set: in its place and under its key when it is there, at the end
otherwise. -/
def set : Mapping → Scalar → Value → Mapping
  | [], key, value => [(key, value)]
  | (k, v) :: rest, key, value =>
      if k.alike key then (k, value) :: rest else (k, v) :: set rest key value

@[simp]
theorem get?_nil (key : Scalar) : get? [] key = none := rfl

theorem get?_cons (k : Scalar) (v : Value) (rest : Mapping) (key : Scalar) :
    get? ((k, v) :: rest) key = if k.alike key then some v else get? rest key := by
  by_cases same : k.alike key <;> simp [get?, List.find?, same]

@[simp]
theorem get?_set_self (fields : Mapping) (key : Scalar) (value : Value) :
    get? (set fields key value) key = some value := by
  induction fields with
  | nil => simp [set, get?_cons]
  | cons field rest ih =>
      obtain ⟨k, v⟩ := field
      by_cases same : k.alike key <;> simp [set, same, get?_cons, ih]

theorem get?_set_of_not_alike (fields : Mapping) {key other : Scalar} (value : Value)
    (differ : key.alike other = false) : get? (set fields key value) other = get? fields other := by
  induction fields with
  | nil => simp [set, get?_cons, differ]
  | cons field rest ih =>
      obtain ⟨k, v⟩ := field
      by_cases same : k.alike key
      · have other_differs : k.alike other = false := by
          simp only [Scalar.alike, decide_eq_true_eq, decide_eq_false_iff_not] at same differ ⊢
          rwa [same]
        simp [set, same, get?_cons, other_differs]
      · simp [set, same, get?_cons, ih]

end Mapping

end SymbolJump
