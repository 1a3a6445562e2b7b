/-
# Documents

A document is a value, but a list or an object in it may hold itself. A part of a document is
therefore either a value that is complete in itself or a knot: a collection that is known by a
number, so that its parts can refer to it. A knot means the same value wherever it is used; inside
itself it is only mentioned, so what is mentioned depends on the part that one starts from.
-/
import SymbolJump.Value.Basic

namespace SymbolJump

/-- A part of a document: a complete value, or the knot of a number. -/
inductive Part
  | value (value : Value)
  | knot (number : Nat)

instance : Inhabited Part := ⟨.value .null⟩

/-- A list or an object that may hold itself. -/
inductive Knot
  | list (items : List Part)
  | object (fields : List (Scalar × Part))

instance : Inhabited Knot := ⟨.list []⟩

/-- Fields set one after the other: of those with the same key the last counts, in the place and
under the key of the first. -/
def Mapping.ofFields (fields : List (Scalar × Value)) : Mapping :=
  fields.foldl (fun fields (key, value) => fields.set key value) []

namespace Knot

/-- Whether a knot is a list. -/
def isList : Knot → Bool
  | list _ => true
  | object _ => false

/-- The value of a knot whose parts have the given values. -/
def value (valueOf : Part → Value) : Knot → Value
  | list items => .list (items.map valueOf)
  | object fields => .object (Mapping.ofFields (fields.map fun (key, part) => (key, valueOf part)))

end Knot

/-- What a text of the configuration language says. -/
structure Document where
  root : Part
  /-- The knots by number. -/
  knots : Array Knot := #[]

namespace Document

variable (document : Document)

/-- The knot of a number. -/
def knotAt (number : Nat) : Knot :=
  document.knots[number]?.getD default

/-- The value of a part inside knots. Those are only mentioned. -/
def valueInside : (fuel : Nat) → (around : List Nat) → Part → Value
  | _, _, .value value => value
  | 0, _, .knot number => .again (document.knotAt number).isList
  | fuel + 1, around, .knot number =>
      let knot := document.knotAt number
      if around.contains number then .again knot.isList
      else knot.value (valueInside fuel (number :: around))

/-- The value of a part, seen from that part. -/
def value (part : Part) : Value :=
  document.valueInside (document.knots.size + 1) [] part

/-- The value of a part in which the items of a list are each seen from themselves. -/
def openedValue (part : Part) : Value :=
  match part with
  | .value value => value
  | .knot number =>
      match document.knotAt number with
      | .list items => .list (items.map document.value)
      | .object _ => document.value part

/-- The value of the whole document. -/
def rootValue : Value :=
  document.value document.root

/-- The fields of a document that is an object, each value seen from itself; under some keys the
items of a list are too. -/
def fields? (isOpened : Scalar → Bool) : Option Mapping :=
  match document.root with
  | .value (.object fields) => some (Mapping.ofFields fields)
  | .value _ => none
  | .knot number =>
      match document.knotAt number with
      | .object fields =>
          some (Mapping.ofFields (fields.map fun (key, part) =>
            (key, if isOpened key then document.openedValue part else document.value part)))
      | .list _ => none

end Document

end SymbolJump
