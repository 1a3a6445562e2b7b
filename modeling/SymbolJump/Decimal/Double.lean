/-
# Binary floating-point numbers

A finite double is a sign and its place among the magnitudes, counted upwards from zero: each
place is the next larger magnitude, and the smallest positive one is the unit in which all of them
are whole numbers. This makes the arithmetic exact: a quotient is rounded once, in natural numbers,
to the nearest place, and a tie goes to the even one. A magnitude too large for any place is
rounded to infinity, and what has no value at all is no number.
-/
namespace SymbolJump.Decimal

/-- The number of magnitudes in one binade. -/
def binade : Nat := Nat.pow 2 52

/-- The number of units in the number one. -/
def unitsPerOne : Nat := Nat.pow 2 1074

/-- The number of finite magnitudes. -/
def magnitudes : Nat := 2047 * binade

/-- A finite double: its sign and its place among the magnitudes. -/
structure Double where
  negative : Bool
  place : Nat
  place_lt : place < magnitudes
deriving DecidableEq

/-- The quotient of two numbers rounded to the nearest whole number, ties to the even one. -/
def roundQuotient (numerator denominator : Nat) : Nat :=
  let quotient := numerator / denominator
  let twice := 2 * (numerator % denominator)
  if twice < denominator then quotient
  else if denominator < twice then quotient + 1
  else if quotient % 2 = 0 then quotient
  else quotient + 1

namespace Double

/-- The magnitude at a place, in units. The first two binades have steps of one unit, and each
later one doubles the step. -/
def unitsAt (place : Nat) : Nat :=
  if place < binade then place
  else (binade + place % binade) * Nat.pow 2 (place / binade - 1)

/-- The magnitude of a double, in units. -/
def units (x : Double) : Nat :=
  unitsAt x.place

/-- The place nearest to a quotient of natural numbers, among the magnitudes continued beyond
the largest. -/
def placeOfQuotient (numerator denominator : Nat) : Nat :=
  let scaled := numerator * unitsPerOne
  let step := (scaled / denominator).log2 - 52
  roundQuotient scaled (denominator * Nat.pow 2 step) + step * binade

/-- The place nearest to `digits * 10 ^ exponent`. Exponents beyond every double are cut short,
which changes no reading. -/
def placeOfDecimal (digits : Nat) (exponent : Int) : Nat :=
  let width : Int := (Nat.toDigits 10 digits).length
  if digits = 0 ∨ exponent + width < -400 then 0
  else if 400 < exponent then magnitudes
  else if 0 ≤ exponent then placeOfQuotient (digits * Nat.pow 10 exponent.toNat) 1
  else placeOfQuotient digits (Nat.pow 10 (-exponent).toNat)

/-- The double nearest to a quotient of natural numbers; nothing when it is too large. -/
def ofQuotient? (numerator denominator : Nat) : Option Double :=
  let place := placeOfQuotient numerator denominator
  if bound : place < magnitudes then some ⟨false, place, bound⟩ else none

/-- The value of a double in units, with its sign. -/
def signedUnits (x : Double) : Int :=
  if x.negative then -(x.units : Int) else x.units

/-- The whole number that a double equals, if any. -/
def toInt? (x : Double) : Option Int :=
  if x.units % unitsPerOne = 0 then some (x.signedUnits / unitsPerOne) else none

/-- A double without its fraction. -/
def truncate (x : Double) : Int :=
  x.signedUnits.tdiv unitsPerOne

/-- Whether a double is zero, of either sign. -/
def isZero (x : Double) : Bool :=
  x.place == 0

end Double

/-- A floating-point number: a finite double, an infinity, or what is no number. -/
inductive Floating
  | finite (value : Double)
  | infinite (negative : Bool)
  | nan
deriving DecidableEq

namespace Floating

/-- The number at a place: infinity beyond the last one. -/
def atPlace (negative : Bool) (place : Nat) : Floating :=
  if bound : place < magnitudes then finite ⟨negative, place, bound⟩ else infinite negative

/-- The number nearest to a quotient of natural numbers, with a given sign. -/
def ofQuotient (negative : Bool) (numerator denominator : Nat) : Floating :=
  atPlace negative (Double.placeOfQuotient numerator denominator)

/-- The number nearest to `digits * 10 ^ exponent`, with a given sign. -/
def ofDecimal (negative : Bool) (digits : Nat) (exponent : Int) : Floating :=
  atPlace negative (Double.placeOfDecimal digits exponent)

/-- The number nearest to a number of units. -/
def ofUnits (sum : Int) : Floating :=
  ofQuotient (sum < 0) sum.natAbs unitsPerOne

/-- A number with another sign. -/
def withSign (negative : Bool) : Floating → Floating
  | finite x => finite { x with negative }
  | infinite _ => infinite negative
  | nan => nan

/-- Whether a number is below zero, or the zero below zero. -/
def isNegative : Floating → Bool
  | finite x => x.negative
  | infinite negative => negative
  | nan => false

/-- Whether a number is zero, of either sign. -/
def isZero : Floating → Bool
  | finite x => x.isZero
  | infinite _ | nan => false

/-- The sum of a number and a whole one, rounded once. -/
def addInt (n : Int) : Floating → Floating
  | finite x => ofUnits (x.signedUnits + n * unitsPerOne)
  | x => x

/-- The sum of two numbers. -/
def add : Floating → Floating → Floating
  | finite x, finite y => ofUnits (x.signedUnits + y.signedUnits)
  | nan, _ | _, nan => nan
  | infinite a, infinite b => if a = b then infinite a else nan
  | infinite a, finite _ | finite _, infinite a => infinite a

/-- The product of two numbers. -/
def mul (x y : Floating) : Floating :=
  match x, y with
  | finite a, finite b =>
      ofQuotient (a.negative != b.negative) (a.units * b.units) (unitsPerOne * unitsPerOne)
  | nan, _ | _, nan => nan
  | x, y => if x.isZero || y.isZero then nan else infinite (x.isNegative != y.isNegative)

/-- The whole number that a number equals, if any. -/
def toInt? : Floating → Option Int
  | finite x => x.toInt?
  | infinite _ | nan => none

/-- A number without its fraction, if it has a value. -/
def truncate? : Floating → Option Int
  | finite x => some x.truncate
  | infinite _ | nan => none

end Floating

end SymbolJump.Decimal
