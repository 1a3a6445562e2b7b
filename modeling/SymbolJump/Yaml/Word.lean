/-
# What plain scalars mean

A plain scalar is a word with a value: nothing, a truth value, a number in one of several
notations, or else a text. Whole numbers may be binary, octal, decimal, hexadecimal or count in
sixties; underscores in numbers are ignored. A number with an exponent needs a point and the
sign of the exponent.
-/
import SymbolJump.Json.Token
import SymbolJump.Text.Pieces
import SymbolJump.Value.Basic
import SymbolJump.Yaml.Cursor

namespace SymbolJump.Yaml

open Decimal Text

/-- A number's sign and what follows it. -/
def cutSign : List Char → Bool × List Char
  | '-' :: rest => (true, rest)
  | '+' :: rest => (false, rest)
  | text => (false, text)

/-- Whether a text is not empty and holds only underscores and digits of a base. -/
def isGrouped (base : Nat) (text : List Char) : Bool :=
  !text.isEmpty && text.all fun c => c == '_' || (hexValue? c).any (· < base)

/-- The number that the digits of a base in a text denote, underscores left out; nothing when
there is no digit. -/
def grouped? (base : Nat) (text : List Char) : Option Nat :=
  let digits := text.filter (· ≠ '_')
  if digits.isEmpty then none else (digits.mapM hexValue?).map (ofDigits base)

/-- Whether a text starts with a decimal digit and goes on with digits and underscores. -/
def isDecimalRun (text : List Char) : Bool :=
  (text.head?.map isAsciiDigit).getD false && isGrouped 10 text

/-- Whether a text is one place of a number that counts in sixties. -/
def isSixtieth : List Char → Bool
  | [c] => isAsciiDigit c
  | [a, b] => '0' ≤ a && a ≤ '5' && isAsciiDigit b
  | _ => false

/-- Whether a text is a number that counts in sixties, with at least two places. -/
def areSixties (places : List (List Char)) : Bool :=
  match places with
  | first :: second :: more => isDecimalRun first && (second :: more).all isSixtieth
  | _ => false

/-- The digits of a decimal number without underscores, as a number. There may not be too
many. -/
def decimalNumber (text : List Char) : Except Problem Nat :=
  let digits := text.filter (· ≠ '_')
  if numeralLimit < digits.length then .error (.longNumeral digits.length)
  else .ok ((grouped? 10 digits).getD 0)

/-- The number that digits of a base denote; there must be one. -/
def basedNumber (base : Nat) (digits : List Char) : Except Problem Nat :=
  match grouped? base digits with
  | some value => .ok value
  | none => .error (.noDigits base)

/-- How a whole number without its sign is read; nothing for another word. -/
def wholeNumber? (text : List Char) : Option (Except Problem Nat) :=
  match text with
  | ['0'] => some (.ok 0)
  | '0' :: 'b' :: digits => if isGrouped 2 digits then some (basedNumber 2 digits) else none
  | '0' :: 'x' :: digits => if isGrouped 16 digits then some (basedNumber 16 digits) else none
  | '0' :: digits => if isGrouped 8 digits then some (basedNumber 8 text) else none
  | _ =>
      let places := splitOn ':' text
      if isDecimalRun text then some (decimalNumber text)
      else if areSixties places then some ((places.mapM decimalNumber).map (ofDigits 60))
      else none

/-- An exponent with its sign. -/
def exponentOf? : List Char → Option Int
  | mark :: sign :: digits =>
      if (mark = 'e' ∨ mark = 'E') ∧ (sign = '-' ∨ sign = '+') then
        match Json.digits? digits with
        | some value => some (if sign = '-' then -(value : Int) else value)
        | none => none
      else none
  | _ => none

/-- The number that the digits around a point denote with an exponent, underscores left out. -/
def pointedDouble (before after : List Char) (exponent : Int) : Floating :=
  let places := after.filter (· ≠ '_')
  .ofDecimal false ((grouped? 10 (before ++ places)).getD 0) (exponent - places.length)

/-- The sum of places that count in sixties, the least one first: each is rounded and is added
to the sum of those before it. -/
def sumOfSixties (sum : Floating) (base : Nat) : List Floating → Except Problem Floating
  | [] => .ok sum
  | place :: places =>
      match Double.ofQuotient? base 1 with
      | some factor => sumOfSixties (sum.add (place.mul (.finite factor))) (60 * base) places
      | none => .error .longSixties

/-- How a number with a point and without its sign is read, from what stands before the point
and what follows it; nothing for another word. -/
def pointed? (before after : List Char) : Option (Except Problem Floating) :=
  let digits := after.takeWhile fun c => isAsciiDigit c || c == '_'
  let tail := after.dropWhile fun c => isAsciiDigit c || c == '_'
  let places := splitOn ':' before
  if isDecimalRun before then
    (if tail.isEmpty then some 0 else exponentOf? tail).map fun exponent =>
      .ok (pointedDouble before digits exponent)
  else if areSixties places ∧ tail.isEmpty then
    let whole := places.dropLast.map fun place => pointedDouble place [] 0
    let last := pointedDouble (places.getLastD []) digits 0
    some (sumOfSixties (.ofDecimal false 0 0) 1 (last :: whole.reverse))
  else none

/-- How a number with a point is read; nothing for another word. One without a digit before the
point has no sign and a digit after it. -/
def double? (text : List Char) : Option (Except Problem Floating) :=
  let (negative, unsigned) := cutSign text
  let signed (value : Except Problem Floating) : Except Problem Floating :=
    value.map (Floating.withSign negative)
  match cutAt '.' unsigned with
  | (_, none) => none
  | ([], some after) =>
      if unsigned.length = text.length ∧ (after.head?.map isAsciiDigit).getD false then
        pointed? ['0'] after
      else none
  | (before, some after) => (pointed? before after).map signed

/-- The words for nothing. -/
def nullWords : List String := ["", "~", "null", "Null", "NULL"]

/-- The words for yes. -/
def trueWords : List String :=
  ["yes", "Yes", "YES", "true", "True", "TRUE", "on", "On", "ON"]

/-- The words for no. -/
def falseWords : List String :=
  ["no", "No", "NO", "false", "False", "FALSE", "off", "Off", "OFF"]

/-- The words for infinity. -/
def infinityWords : List String := [".inf", ".Inf", ".INF"]

/-- The words for what is no number. -/
def nanWords : List String := [".nan", ".NaN", ".NAN"]

/-- The number, not a finite one, that a word names. -/
def boundless? (text : List Char) : Option Floating :=
  let (negative, unsigned) := cutSign text
  if infinityWords.contains (String.ofList unsigned) then some (.infinite negative)
  else if nanWords.contains (String.ofList text) then some .nan
  else none

/-- The value of a plain scalar. -/
def wordValue (text : List Char) : Except Problem Scalar :=
  let word := String.ofList text
  if nullWords.contains word then .ok .null
  else if trueWords.contains word then .ok (.bool true)
  else if falseWords.contains word then .ok (.bool false)
  else if word = "=" ∨ word = "<<" then .error .noValue
  else match ((boundless? text).map Except.ok) <|> double? text with
    | some value => value.map Scalar.float
    | none =>
        let (negative, unsigned) := cutSign text
        match wholeNumber? unsigned with
        | some value => value.map fun n => .int (if negative then -(n : Int) else n)
        | none => .ok (.text word)

/-- The value of a plain scalar that stands as a key: an equals sign is then a text. -/
def keyValue (text : List Char) : Except Problem Scalar :=
  if text = ['='] then .ok (.text "=") else wordValue text

end SymbolJump.Yaml
