/-
# Tokens of written values

A written value is a sequence of brackets, commas, colons, texts and bare words. One pass over
the characters finds them, in a mode that says what the characters read so far have begun; the
pass refuses a character that its mode cannot take. Numbers and words such as `null` and `true`
are told apart when a bare word ends.
-/
import SymbolJump.Json.Basic
import SymbolJump.Text.Digits
import SymbolJump.Text.Wide

namespace SymbolJump.Json

open Text

/-- A token of a written value. -/
inductive Token
  | openList
  | closeList
  | openObject
  | closeObject
  | comma
  | colon
  | text (value : Wide)
  | scalar (value : Json Wide)
deriving DecidableEq

/-- What the characters read so far have begun. The units of texts and the characters of bare
words are in reverse. -/
inductive Mode
  | between
  | inText (units : Wide)
  | afterBackslash (units : Wide)
  | inCodeUnit (units : Wide) (digits : List Nat)
  | inWord (chars : List Char)

/-- Whether a character separates tokens and is none itself. -/
def isSpace (c : Char) : Bool :=
  c == ' ' || c == '\t' || c == '\n' || c == '\r'

/-- The token that a single character is. -/
def punctuation? : Char → Option Token
  | '[' => some .openList
  | ']' => some .closeList
  | '{' => some .openObject
  | '}' => some .closeObject
  | ',' => some .comma
  | ':' => some .colon
  | _ => none

/-- Whether a character may stand in a bare word. -/
def isWordChar (c : Char) : Bool :=
  isAsciiLetter c || isAsciiDigit c || c == '+' || c == '-' || c == '.'

/-- The unit that a character after a backslash denotes. -/
def escaped? : Char → Option UInt16
  | '"' => some 0x22
  | '\\' => some 0x5c
  | '/' => some 0x2f
  | 'b' => some 0x08
  | 'f' => some 0x0c
  | 'n' => some 0x0a
  | 'r' => some 0x0d
  | 't' => some 0x09
  | _ => none

/-- A number without its sign: its whole part, the digits after the point if there is one, and
the exponent if there is one. -/
structure Numeral where
  whole : List Char
  fraction : Option (List Char)
  exponent : Option (List Char)

/-- The number of a list of ASCII digits; nothing for an empty list or another character. -/
def digits? (chars : List Char) : Option Nat :=
  if chars.isEmpty || !chars.all isAsciiDigit then none else decimal? chars

/-- The value of an exponent, which may have a sign. -/
def exponent? : List Char → Option Int
  | '+' :: chars => (digits? chars).map Int.ofNat
  | '-' :: chars => (digits? chars).map fun value => -(value : Int)
  | chars => (digits? chars).map Int.ofNat

/-- The parts of an unsigned number. -/
def Numeral.ofChars (chars : List Char) : Numeral :=
  let mantissa := chars.takeWhile fun c => c ≠ 'e' ∧ c ≠ 'E'
  let tail := chars.dropWhile fun c => c ≠ 'e' ∧ c ≠ 'E'
  let whole := mantissa.takeWhile (· ≠ '.')
  let fraction := mantissa.dropWhile (· ≠ '.')
  { whole
    fraction := if fraction.isEmpty then none else some (fraction.drop 1)
    exponent := if tail.isEmpty then none else some (tail.drop 1) }

/-- The value of a number with the given sign. A number with a fraction or an exponent is a
floating-point number, any other one a whole number; a whole part of several digits starts with no
zero. -/
def Numeral.value? (negative : Bool) (numeral : Numeral) : Option (Json Wide) := do
  let whole ← digits? numeral.whole
  if numeral.whole.head? = some '0' ∧ numeral.whole.length ≠ 1 then none
  else
    match numeral.fraction, numeral.exponent with
    | none, none =>
        if numeralLimit < numeral.whole.length then none
        else return .int (if negative then -(whole : Int) else whole)
    | fraction, exponent =>
        let places := (fraction.getD []).length
        let part ← if fraction.isSome then digits? (fraction.getD []) else some 0
        let power ← if exponent.isSome then exponent? (exponent.getD []) else some 0
        return .float (.ofDecimal negative (whole * Nat.pow 10 places + part) (power - places))

/-- The words that name a value. -/
def namedWords : List (String × Json Wide) :=
  [("null", .null), ("true", .bool true), ("false", .bool false), ("NaN", .float .nan),
   ("Infinity", .float (.infinite false)), ("-Infinity", .float (.infinite true))]

/-- The value of a bare word. -/
def word? (chars : List Char) : Option (Json Wide) :=
  match namedWords.lookup (String.ofList chars) with
  | some value => some value
  | none =>
      match chars with
      | '-' :: rest => (Numeral.ofChars rest).value? true
      | _ => (Numeral.ofChars chars).value? false

/-- What one character does to a mode: the tokens that it completes, and the next mode. -/
def Mode.take : Mode → Char → Option (List Token × Mode)
  | .between, c => enter c
  | .inText units, c =>
      if c = '"' then some ([.text units.reverse], .between)
      else if c = '\\' then some ([], .afterBackslash units)
      else if c.toNat < 0x20 then none
      else some ([], .inText ((unitsOf c).reverse ++ units))
  | .afterBackslash units, c =>
      if c = 'u' then some ([], .inCodeUnit units [])
      else (escaped? c).map fun unit => ([], .inText (unit :: units))
  | .inCodeUnit units digits, c =>
      (hexValue? c).map fun digit =>
        if digits.length = 3 then ([], .inText (.ofNat (ofDigits 16 (digits ++ [digit])) :: units))
        else ([], .inCodeUnit units (digits ++ [digit]))
  | .inWord chars, c =>
      if isWordChar c then some ([], .inWord (c :: chars))
      else do
        let value ← word? chars.reverse
        let (tokens, mode) ← enter c
        return (.scalar value :: tokens, mode)
where
  /-- A character that follows a complete token. -/
  enter (c : Char) : Option (List Token × Mode) :=
    if isSpace c then some ([], .between)
    else if c = '"' then some ([], .inText [])
    else match punctuation? c with
      | some token => some ([token], .between)
      | none => if isWordChar c then some ([], .inWord [c]) else none

/-- What the end of the text completes. -/
def Mode.finish : Mode → Option (List Token)
  | .between => some []
  | .inWord chars => (word? chars.reverse).map fun value => [.scalar value]
  | .inText _ | .afterBackslash _ | .inCodeUnit _ _ => none

/-- The tokens of a text that is read on in a mode. -/
def tokensFrom (mode : Mode) : List Char → Option (List Token)
  | [] => mode.finish
  | c :: rest => do
      let (tokens, next) ← mode.take c
      return tokens ++ (← tokensFrom next rest)

/-- The tokens of a written value. -/
def tokens (text : List Char) : Option (List Token) :=
  tokensFrom .between text

end SymbolJump.Json
