/-
# Depth

How deep the lists and objects of a value may be nested is limited where each level takes a part of
a stack. A reader of limited depth gives up at the first bracket beyond it, whatever comes later,
and a value of a greater height than the stack has room for cannot be shown.
-/
import SymbolJump.Json.Reader

namespace SymbolJump.Json

open Text

/-- What goes too deep: a list or an object that is read, or a value that is shown. -/
inductive Nesting
  | list
  | object
  | shown
deriving DecidableEq, Repr

/-- How deep values may be nested that are read, and how high those may be that are shown, where
that is limited. -/
structure Reach where
  read : Option Nat := none
  shown : Option Nat := none
deriving DecidableEq

namespace Position

/-- What has just been opened, and how many lists and objects are open then. -/
def opened? (position : Position) : Option (Nesting × Nat) :=
  match position.awaiting with
  | .firstItem => some (.list, position.stack.length + 1)
  | .firstKey => some (.object, position.stack.length + 1)
  | _ => none

/-- What goes beyond a depth, if anything has just been opened there. -/
def beyond? (limit : Nat) (position : Position) : Option Nesting :=
  position.opened?.bind fun (opened, depth) => if limit < depth then some opened else none

end Position

/-- What goes beyond a depth first in a text that is read on from a position in a mode. -/
def tooDeepFrom? (limit : Nat) (mode : Mode) (position : Position) : List Char → Option Nesting
  | [] => none
  | c :: rest => do
      let (tokens, mode) ← mode.take c
      let position ← position.takeAll tokens
      position.beyond? limit <|> tooDeepFrom? limit mode position rest

/-- What is too deep for a reader that may be limited. -/
def tooDeep? (limit : Option Nat) (text : String) : Option Nesting :=
  limit.bind fun limit => tooDeepFrom? limit .between ⟨.value, []⟩ text.toList

variable {τ : Type}

mutual

/-- How many values are inside each other at most, the value itself included. -/
def height : Json τ → Nat
  | .list items => heightOfItems items + 1
  | .object fields => heightOfFields fields + 1
  | _ => 1

/-- The greatest height in a list. -/
def heightOfItems : List (Json τ) → Nat
  | [] => 0
  | item :: items => max (height item) (heightOfItems items)

/-- The greatest height in an object. -/
def heightOfFields : List (τ × Json τ) → Nat
  | [] => 0
  | (_, value) :: fields => max (height value) (heightOfFields fields)

end

/-- Whether a value is too high to be shown. -/
def isTooHigh (limit : Option Nat) (value : Json τ) : Bool :=
  limit.any (· < value.height)

end SymbolJump.Json
