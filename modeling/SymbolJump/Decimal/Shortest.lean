/-
# The shortest decimal of a double

Of all decimals that read back as a given double, the text of a double shows one with the
fewest digits and, of those, the nearest. For each number of digits only two decimals can
qualify, the neighbours of the value on the grid of that many digits.
-/
import SymbolJump.Decimal.Double

namespace SymbolJump.Decimal

/-- A decimal `digits * 10 ^ exponent`. -/
structure Scaled where
  digits : Nat
  exponent : Int
deriving DecidableEq, Repr

/-- The numerator and denominator of a power of ten. -/
def powerOfTen (exponent : Int) : Nat × Nat :=
  if 0 ≤ exponent then (Nat.pow 10 exponent.toNat, 1) else (1, Nat.pow 10 (-exponent).toNat)

namespace Double

/-- The exponent of the first decimal digit of a positive magnitude, in units. -/
def leadingExponent (units : Nat) : Int :=
  ((Nat.toDigits 10 (units * Nat.pow 10 400 / unitsPerOne)).length : Int) - 401

/-- Whether a decimal reads back as a magnitude at the given place. -/
def readsBack (place : Nat) (decimal : Scaled) : Bool :=
  placeOfDecimal decimal.digits decimal.exponent == place

/-- The decimals next to a magnitude on the grid of a power of ten, the nearer one first. -/
def around (units : Nat) (exponent : Int) : List Scaled :=
  let (num, den) := powerOfTen exponent
  let below := units * den / (unitsPerOne * num)
  let beyond := units * den % (unitsPerOne * num)
  let lower := ⟨below, exponent⟩
  let upper := ⟨below + 1, exponent⟩
  if 2 * beyond < unitsPerOne * num ∨ 2 * beyond = unitsPerOne * num ∧ below % 2 = 0 then
    [lower, upper]
  else [upper, lower]

/-- The decimals next to a magnitude among those with the given number of digits. -/
def neighbours (units count : Nat) : List Scaled :=
  around units (leadingExponent units + 1 - count)

/-- The shortest decimal that reads back as a double's magnitude. Seventeen digits always
suffice. -/
def shortest (x : Double) : Scaled :=
  if x.place = 0 then ⟨0, 0⟩
  else
    let candidates := (List.range 17).flatMap fun count => neighbours x.units (count + 1)
    (candidates.find? (readsBack x.place)).getD ⟨0, 0⟩

end Double

end SymbolJump.Decimal
