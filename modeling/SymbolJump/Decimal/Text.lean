/-
# The text of a double

A double is written with its shortest digits: positionally when its first digit stands between
the ten-thousandths and the sixteenth place before the point, and otherwise with an exponent of
at least two digits. A positional text always has a digit after the point.
-/
import SymbolJump.Decimal.Shortest

namespace SymbolJump.Decimal

/-- The digits of a number without the zeros at its end. -/
def significantDigits (n : Nat) : List Char :=
  ((Nat.toDigits 10 n).reverse.dropWhile (· = '0')).reverse

/-- Digits with the point after the given number of them. -/
def positional (digits : List Char) (point : Int) : List Char :=
  if point ≤ 0 then '0' :: '.' :: List.replicate (-point).toNat '0' ++ digits
  else
    let whole := point.toNat
    if digits.length ≤ whole then
      digits ++ List.replicate (whole - digits.length) '0' ++ ['.', '0']
    else digits.take whole ++ '.' :: digits.drop whole

/-- Digits with the point after the first, and an exponent. -/
def scientific (digits : List Char) (exponent : Int) : List Char :=
  let power := Nat.toDigits 10 exponent.natAbs
  let fraction := if digits.length ≤ 1 then [] else '.' :: digits.drop 1
  digits.take 1 ++ fraction ++ 'e' :: (if exponent < 0 then '-' else '+') ::
    List.replicate (2 - power.length) '0' ++ power

/-- The text of a double without its sign. -/
def Double.magnitudeText (x : Double) : List Char :=
  if x.isZero then ['0', '.', '0']
  else
    let decimal := x.shortest
    let width := (Nat.toDigits 10 decimal.digits).length
    let digits := significantDigits decimal.digits
    let point : Int := decimal.exponent + width
    if -4 < point ∧ point ≤ 16 then positional digits point else scientific digits (point - 1)

/-- The text of a double. -/
def Double.text (x : Double) : String :=
  String.ofList (if x.negative then '-' :: x.magnitudeText else x.magnitudeText)

/-- The text of a floating-point number. -/
def Floating.text : Floating → String
  | finite x => x.text
  | infinite false => "inf"
  | infinite true => "-inf"
  | nan => "nan"

end SymbolJump.Decimal
