/-
# Values in messages

Messages show a value in a notation of their own: `None`, `True` and `False`, texts between
quotes, lists and objects in brackets, and dots for a list or an object inside itself. A value
that stands for a word is worded: a text is then shown bare. A whole number has a greatest
length, and a value that holds a longer one cannot be shown.
-/
import SymbolJump.Text.Digits
import SymbolJump.Text.Quoted
import SymbolJump.Value.Basic

namespace SymbolJump

open Text

/-- A truth value as messages show it. -/
def shownTruth (value : Bool) : String :=
  if value then "True" else "False"

/-- Whether a whole number is short enough to be shown. -/
def isShort (value : Int) : Bool :=
  value.natAbs < Nat.pow 10 numeralLimit

namespace Scalar

/-- A scalar as messages show it. -/
def shown : Scalar → String
  | null => "None"
  | bool value => shownTruth value
  | int value => toString value
  | float value => value.text
  | text value => quoted value
  | bytes value => quotedBytes value
  | foreign value => value.shown

/-- Whether a scalar is short enough to be shown. -/
def isShowable : Scalar → Bool
  | int value => isShort value
  | foreign value => value.isShowable
  | _ => true

/-- The name of a scalar's type in messages. -/
def typeName : Scalar → String
  | null => "NoneType"
  | bool _ => "bool"
  | int _ => "int"
  | float _ => "float"
  | text _ => "str"
  | bytes _ => "bytes"
  | foreign value => value.typeName

end Scalar

namespace Value

mutual

/-- A value as messages show it. -/
def shown : Value → String
  | .scalar value => value.shown
  | .list items => "[" ++ shownItems items ++ "]"
  | .set [] => "set()"
  | .set items => "\x7b" ++ joinWith ", " (items.map Scalar.shown) ++ "\x7d"
  | .object fields => "\x7b" ++ shownFields fields ++ "\x7d"
  | .again isList => if isList then "[...]" else "\x7b...\x7d"

/-- The items of a list as messages show them. -/
def shownItems : List Value → String
  | [] => ""
  | [item] => shown item
  | item :: items => shown item ++ ", " ++ shownItems items

/-- The fields of an object as messages show them. -/
def shownFields : List (Scalar × Value) → String
  | [] => ""
  | [(key, value)] => key.shown ++ ": " ++ shown value
  | (key, value) :: fields => key.shown ++ ": " ++ shown value ++ ", " ++ shownFields fields

end

mutual

/-- Whether no number in a value is too long to be shown. -/
def isShowable : Value → Bool
  | .scalar value => value.isShowable
  | .list items => areShowable items
  | .set items => items.all Scalar.isShowable
  | .object fields => areFieldsShowable fields
  | .again _ => true

/-- Whether all items of a list can be shown. -/
def areShowable : List Value → Bool
  | [] => true
  | item :: items => isShowable item && areShowable items

/-- Whether all fields of an object can be shown. -/
def areFieldsShowable : List (Scalar × Value) → Bool
  | [] => true
  | (key, value) :: fields => key.isShowable && isShowable value && areFieldsShowable fields

end

/-- A value that stands for a word. -/
def worded : Value → String
  | .text value => value
  | .scalar (.foreign value) => value.worded
  | value => shown value

/-- The name of a value's type in messages. -/
def typeName : Value → String
  | .scalar value => value.typeName
  | .list _ | .again true => "list"
  | .set _ => "set"
  | .object _ | .again false => "dict"

end Value

/-- A form of texts that messages can show, between quotes and bare. -/
class Legible (τ : Type) where
  quoted : τ → String
  bare : τ → String

instance : Legible String := ⟨quoted, id⟩

instance : Legible Wide := ⟨quotedWide, bareWide⟩

namespace Json

variable {τ : Type} [Legible τ]

mutual

/-- A written value as messages show it. -/
def shown : Json τ → String
  | .null => "None"
  | .bool value => shownTruth value
  | .int value => toString value
  | .float value => value.text
  | .text value => Legible.quoted value
  | .list items => "[" ++ shownItems items ++ "]"
  | .object fields => "\x7b" ++ shownFields fields ++ "\x7d"

/-- The items of a written list as messages show them. -/
def shownItems : List (Json τ) → String
  | [] => ""
  | [item] => shown item
  | item :: items => shown item ++ ", " ++ shownItems items

/-- The fields of a written object as messages show them. -/
def shownFields : List (τ × Json τ) → String
  | [] => ""
  | [(key, value)] => Legible.quoted key ++ ": " ++ shown value
  | (key, value) :: fields =>
      Legible.quoted key ++ ": " ++ shown value ++ ", " ++ shownFields fields

end

/-- A written value that stands for a word. -/
def worded : Json τ → String
  | .text value => Legible.bare value
  | value => shown value

omit [Legible τ]

/-- Whether a written number is short enough to be shown. -/
def isShowable : Json τ → Bool
  | .int value => isShort value
  | _ => true

/-- The name of a written value's type in messages. -/
def typeName : Json τ → String
  | .null => "NoneType"
  | .bool _ => "bool"
  | .int _ => "int"
  | .float _ => "float"
  | .text _ => "str"
  | .list _ => "list"
  | .object _ => "dict"

/-- A list of texts as messages show it. -/
def shownTexts (texts : List String) : String :=
  "[" ++ joinWith ", " (texts.map quoted) ++ "]"

end Json

end SymbolJump
