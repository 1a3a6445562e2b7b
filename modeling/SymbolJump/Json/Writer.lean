/-
# Writing values

A value is written on one line, or over several lines with two blanks for each level and the
fields of every object in the order of their keys. Texts are written in ASCII: a unit beyond it is
written by its number.
-/
import SymbolJump.Decimal.Text
import SymbolJump.Json.Basic
import SymbolJump.Text.Digits
import SymbolJump.Text.Wide

namespace SymbolJump.Json

open Decimal Text

/-- One unit of a written text. -/
def writtenUnit (unit : UInt16) : List Char :=
  let c := Char.ofNat unit.toNat
  if c = '"' ∨ c = '\\' then ['\\', c]
  else if c = '\n' then ['\\', 'n']
  else if c = '\r' then ['\\', 'r']
  else if c = '\t' then ['\\', 't']
  else if unit = 0x0c then ['\\', 'f']
  else if unit = 0x08 then ['\\', 'b']
  else if 0x20 ≤ unit.toNat ∧ unit.toNat ≤ 0x7e then [c]
  else '\\' :: 'u' :: hexPlaces 4 unit.toNat

/-- A written text. -/
def writtenText (text : Wide) : List Char :=
  '"' :: text.flatMap writtenUnit ++ ['"']

/-- A written floating-point number. -/
def writtenFloating : Floating → List Char
  | .finite value => value.text.toList
  | .infinite false => "Infinity".toList
  | .infinite true => "-Infinity".toList
  | .nan => "NaN".toList

/-- A value that has no parts. -/
def writtenScalar : Json Wide → List Char
  | .null => ['n', 'u', 'l', 'l']
  | .bool true => ['t', 'r', 'u', 'e']
  | .bool false => ['f', 'a', 'l', 's', 'e']
  | .int value => (toString value).toList
  | .float value => writtenFloating value
  | .text value => writtenText value
  | .list _ => ['[', ']']
  | .object _ => ['{', '}']

mutual

/-- A value on one line. -/
def onOneLine : Json Wide → List Char
  | .list items => '[' :: itemsOnOneLine items ++ [']']
  | .object fields => '{' :: fieldsOnOneLine fields ++ ['}']
  | value => writtenScalar value

/-- The items of a list on one line. -/
def itemsOnOneLine : List (Json Wide) → List Char
  | [] => []
  | [item] => onOneLine item
  | item :: items => onOneLine item ++ [',', ' '] ++ itemsOnOneLine items

/-- The fields of an object on one line. -/
def fieldsOnOneLine : List (Wide × Json Wide) → List Char
  | [] => []
  | [(key, value)] => writtenText key ++ [':', ' '] ++ onOneLine value
  | (key, value) :: fields =>
      writtenText key ++ [':', ' '] ++ onOneLine value ++ [',', ' '] ++ fieldsOnOneLine fields

end

/-- A line break and the blanks of a level. -/
def newLine (level : Nat) : List Char :=
  '\n' :: List.replicate (2 * level) ' '

mutual

/-- A value over several lines, from a level on. -/
def overLines (level : Nat) : Json Wide → List Char
  | .list [] => ['[', ']']
  | .object [] => ['{', '}']
  | .list (item :: items) =>
      '[' :: newLine (level + 1) ++ overLines (level + 1) item ++
        moreItemsOverLines (level + 1) items ++ newLine level ++ [']']
  | .object ((key, value) :: fields) =>
      '{' :: newLine (level + 1) ++ writtenText key ++ [':', ' '] ++
        overLines (level + 1) value ++ moreFieldsOverLines (level + 1) fields ++
        newLine level ++ ['}']
  | value => writtenScalar value

/-- The items of a list after its first. -/
def moreItemsOverLines (level : Nat) : List (Json Wide) → List Char
  | [] => []
  | item :: items =>
      ',' :: newLine level ++ overLines level item ++ moreItemsOverLines level items

/-- The fields of an object after its first. -/
def moreFieldsOverLines (level : Nat) : List (Wide × Json Wide) → List Char
  | [] => []
  | (key, value) :: fields =>
      ',' :: newLine level ++ writtenText key ++ [':', ' '] ++ overLines level value ++
        moreFieldsOverLines level fields

end

/-- Whether a key comes before another one or is the same: keys are in the order of their glyphs. -/
def precedes (a b : Wide) : Bool :=
  areInOrder (glyphs a) (glyphs b)

/-- Fields in the order of their keys. -/
def sortByKey (fields : Fields Wide) : Fields Wide :=
  fields.mergeSort fun a b => precedes a.1 b.1

mutual

/-- A value with the fields of every object in the order of their keys. -/
def sortKeys : Json Wide → Json Wide
  | .list items => .list (sortKeysOfItems items)
  | .object fields => .object (sortByKey (sortKeysOfFields fields))
  | value => value

/-- The items of a list, each with its keys in order. -/
def sortKeysOfItems : List (Json Wide) → List (Json Wide)
  | [] => []
  | item :: items => sortKeys item :: sortKeysOfItems items

/-- The fields of an object, each value with its keys in order. -/
def sortKeysOfFields : List (Wide × Json Wide) → List (Wide × Json Wide)
  | [] => []
  | (key, value) :: fields => (key, sortKeys value) :: sortKeysOfFields fields

end

/-- The text of a value on one line. -/
def compact (value : Json Wide) : String :=
  String.ofList (onOneLine value)

/-- The text of a value over several lines, with keys in order. -/
def indented (value : Json Wide) : String :=
  String.ofList (overLines 0 (sortKeys value))

end SymbolJump.Json
