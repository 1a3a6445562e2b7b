/-
# Waits that are too long

A host counts a wait in seconds, as a double. Which waits it can make is a matter of rounding:
the quotient of the milliseconds by a thousand must round to a finite double. The places of
doubles continue beyond the largest one, so the question is at which numerator a quotient first
rounds to the place after it, and that is half a step before the next power of two.
-/
import Mathlib.Tactic.Linarith
import Mathlib.Tactic.Ring
import SymbolJump.Resolution

namespace SymbolJump

namespace Decimal

/-- A quotient is rounded up by at most one. -/
theorem div_le_roundQuotient (numerator denominator : Nat) :
    numerator / denominator ≤ roundQuotient numerator denominator ∧
      roundQuotient numerator denominator ≤ numerator / denominator + 1 := by
  unfold roundQuotient
  dsimp only
  split
  · omega
  split
  · omega
  split <;> omega

/-- A quotient rounds to less than an even number when it is less than half a step below it: a
tie there goes to the even number. -/
theorem roundQuotient_lt_iff (numerator : Nat) {denominator : Nat} (positive : 0 < denominator)
    (bound : Nat) (even : bound % 2 = 0) (some : 0 < bound) :
    roundQuotient numerator denominator < bound ↔
      2 * numerator < (2 * bound - 1) * denominator := by
  have whole := Nat.div_add_mod numerator denominator
  have part := Nat.mod_lt numerator positive
  have near := div_le_roundQuotient numerator denominator
  rcases Nat.lt_trichotomy (numerator / denominator + 1) bound with below | here | above
  · refine iff_of_true (by omega) ?_
    have room : denominator * (numerator / denominator + 1) ≤ denominator * (bound - 1) :=
      Nat.mul_le_mul_left denominator (by omega)
    have scale : (2 * bound - 1) * denominator = 2 * (denominator * (bound - 1)) + denominator := by
      rw [show 2 * bound - 1 = 2 * (bound - 1) + 1 by omega]
      ring
    rw [Nat.mul_add, Nat.mul_one] at room
    omega
  -- The quotient is odd here, so a tie is rounded up.
  · have scale : (2 * bound - 1) * denominator =
        2 * (denominator * (numerator / denominator)) + denominator := by
      rw [show 2 * bound - 1 = 2 * (numerator / denominator) + 1 by omega]
      ring
    rw [scale]
    unfold roundQuotient
    dsimp only
    split
    · omega
    split
    · omega
    split <;> omega
  · refine iff_of_false (by omega) ?_
    have full : denominator * bound ≤ denominator * (numerator / denominator) :=
      Nat.mul_le_mul_left denominator (by omega)
    have scale : (2 * bound - 1) * denominator ≤ 2 * (denominator * bound) := by
      rw [← Nat.mul_assoc, Nat.mul_comm (2 * denominator), ← Nat.mul_assoc, Nat.mul_comm bound]
      exact Nat.mul_le_mul_right denominator (Nat.sub_le _ _)
    omega

theorem binade_eq : binade = 2 ^ 52 := rfl

namespace Double

theorem placeOfQuotient_eq (numerator denominator : Nat) :
    placeOfQuotient numerator denominator =
      let scaled := numerator * unitsPerOne
      let step := (scaled / denominator).log2 - 52
      roundQuotient scaled (denominator * 2 ^ step) + step * binade := rfl

section Steps

variable {numerator denominator step : Nat}

/-- A quotient is below the end of the binade whose steps it is counted in. -/
theorem lt_mul_two_pow_log2 (numerator : Nat) (positive : 0 < denominator) :
    numerator < denominator * 2 ^ ((numerator / denominator).log2 - 52 + 53) := by
  have whole : numerator / denominator + 1 ≤ 2 ^ ((numerator / denominator).log2 - 52 + 53) :=
    Nat.lt_log2_self.trans_le (Nat.pow_le_pow_right (by decide) (by omega))
  calc
    numerator < denominator * (numerator / denominator + 1) := Nat.lt_mul_div_succ _ positive
    _ ≤ _ := Nat.mul_le_mul_left denominator whole

/-- A quotient is not below the start of the binade whose steps it is counted in, unless they are
the least. -/
theorem mul_two_pow_log2_le (numerator denominator : Nat)
    (some : 0 < (numerator / denominator).log2 - 52) :
    denominator * 2 ^ ((numerator / denominator).log2 - 52 + 52) ≤ numerator := by
  have filled : numerator / denominator ≠ 0 := by
    intro none
    rw [none] at some
    exact absurd some (Nat.not_lt_zero 0)
  have whole : 2 ^ ((numerator / denominator).log2 - 52 + 52) ≤ numerator / denominator := by
    rw [Nat.sub_add_cancel (by omega)]
    exact Nat.log2_self_le filled
  calc
    _ ≤ denominator * (numerator / denominator) := Nat.mul_le_mul_left denominator whole
    _ ≤ numerator := Nat.mul_div_le numerator denominator

/-- The place of a quotient lies before the start of a binade when the quotient is less than half
a step below the magnitude there. -/
theorem placeOfQuotient_lt_iff (positive : 0 < denominator) (some : 0 < step) :
    placeOfQuotient numerator denominator < (step + 2) * binade ↔
      2 * (numerator * unitsPerOne) < (2 ^ 54 - 1) * (denominator * 2 ^ step) := by
  rw [placeOfQuotient_eq]
  dsimp only
  have upper := lt_mul_two_pow_log2 (numerator * unitsPerOne) positive
  have lower := mul_two_pow_log2_le (numerator * unitsPerOne) denominator
  generalize numerator * unitsPerOne = scaled at upper lower ⊢
  generalize (scaled / denominator).log2 - 52 = own at upper lower ⊢
  have near := div_le_roundQuotient scaled (denominator * 2 ^ own)
  rcases Nat.lt_trichotomy own step with below | rfl | above
  · refine iff_of_true ?_ ?_
    · have bound : scaled / (denominator * 2 ^ own) < 2 ^ 53 := by
        apply Nat.div_lt_of_lt_mul
        rwa [Nat.mul_assoc, ← Nat.pow_add]
      have places : (own + 1) * binade ≤ step * binade := Nat.mul_le_mul_right binade below
      rw [binade_eq] at places ⊢
      omega
    · have room : denominator * 2 ^ (own + 53) ≤ denominator * 2 ^ (step + 52) :=
        Nat.mul_le_mul_left denominator (Nat.pow_le_pow_right (by decide) (by omega))
      rw [Nat.pow_add _ step, ← Nat.mul_assoc] at room
      omega
  -- The steps are those before the binade, so its start is an even number of them.
  · have half : 2 * 2 ^ 53 - 1 = 2 ^ 54 - 1 := rfl
    have steps : 0 < denominator * 2 ^ own := Nat.mul_pos positive (Nat.two_pow_pos own)
    rw [← half, ← roundQuotient_lt_iff scaled steps (2 ^ 53) (by decide) (by decide), binade_eq]
    omega
  · have lower := lower (some.trans above)
    refine iff_of_false ?_ ?_
    · have bound : 2 ^ 52 ≤ scaled / (denominator * 2 ^ own) := by
        rw [Nat.le_div_iff_mul_le (Nat.mul_pos positive (Nat.two_pow_pos own)), Nat.mul_comm,
          Nat.mul_assoc, ← Nat.pow_add]
        exact lower
      have places : (step + 1) * binade ≤ own * binade := Nat.mul_le_mul_right binade above
      rw [binade_eq] at places ⊢
      omega
    · have full : denominator * 2 ^ (step + 53) ≤ denominator * 2 ^ (own + 52) :=
        Nat.mul_le_mul_left denominator (Nat.pow_le_pow_right (by decide) (by omega))
      rw [Nat.pow_add _ step, ← Nat.mul_assoc] at full
      omega

end Steps

end Double

end Decimal

/-- A wait is too long just when its seconds are no double. -/
theorem Resolution.ofQuotient?_eq_none_iff (milliseconds : Nat) :
    Decimal.Double.ofQuotient? milliseconds 1000 = none ↔ tooLong ≤ milliseconds := by
  have last : Decimal.magnitudes = (2045 + 2) * Decimal.binade := rfl
  have scale : (2 ^ 54 - 1) * (1000 * 2 ^ 2045) = 2 * (tooLong * Decimal.unitsPerOne) := by
    decide +kernel
  have unit : 0 < Decimal.unitsPerOne := by decide +kernel
  have finite : Decimal.Double.placeOfQuotient milliseconds 1000 < Decimal.magnitudes ↔
      milliseconds < tooLong := by
    rw [last, Decimal.Double.placeOfQuotient_lt_iff (by decide) (by decide), scale,
      Nat.mul_lt_mul_left (by decide), Nat.mul_lt_mul_right unit]
  unfold Decimal.Double.ofQuotient?
  rw [dite_eq_right_iff, ← Nat.not_lt, ← finite]
  simp

end SymbolJump
