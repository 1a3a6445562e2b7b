/-
# Numbers of kinds

An index counts kinds from one, and a kind is read by taking one off its number. The number may be
a double, and a difference of doubles is rounded, so it has to be seen that only a whole number can
give a code. A double of at least one is a whole number of steps, and so is one, up to sizes far
beyond every code; the difference is then again a double and is not rounded at all. Less than one
gives a number below zero, and more than those sizes gives one above every code.
-/
import SymbolJump.IndexEntry
import SymbolJump.Proofs.Doubles

namespace SymbolJump

namespace Decimal

theorem roundQuotient_mul_self (whole : Nat) {denominator : Nat} (positive : 0 < denominator) :
    roundQuotient (whole * denominator) denominator = whole := by
  apply roundQuotient_eq_of_near whole
  · omega
  · omega

namespace Double

/-- The place after a number of steps in a binade has the magnitude of these steps. -/
theorem unitsAt_steps {steps step : Nat} (bound : steps < 2 * binade)
    (full : step = 0 ∨ binade ≤ steps) :
    unitsAt (steps + step * binade) = steps * 2 ^ step := by
  have positive : 0 < binade := by decide
  unfold unitsAt
  rcases Nat.lt_or_ge steps binade with low | high
  · obtain rfl := full.resolve_right (Nat.not_le.mpr low)
    rw [if_pos (by omega)]
    omega
  · obtain ⟨rest, rfl⟩ : ∃ rest, steps = binade + rest := ⟨steps - binade, by omega⟩
    have small : rest < binade := by omega
    have split : binade + rest + step * binade = rest + (step + 1) * binade := by
      rw [Nat.succ_mul]
      omega
    rw [if_neg (by omega), split, Nat.add_mul_mod_self_right, Nat.mod_eq_of_lt small,
      Nat.add_mul_div_right _ _ positive, Nat.div_eq_of_lt small, Nat.zero_add, Nat.add_sub_cancel]
    rfl

/-- The place of a whole number of units. -/
theorem placeOfQuotient_units (units : Nat) :
    placeOfQuotient units unitsPerOne =
      roundQuotient units (2 ^ (units.log2 - 52)) + (units.log2 - 52) * binade := by
  rw [placeOfQuotient_eq]
  dsimp only
  rw [Nat.mul_div_cancel _ unitsPerOne_pos, Nat.mul_comm unitsPerOne,
    roundQuotient_mul_right _ _ unitsPerOne_pos]

/-- A magnitude that fewer than two to the power of fifty-three equal steps make up is kept. -/
theorem unitsAt_placeOfQuotient {steps step : Nat} (bound : steps < 2 ^ 53) :
    unitsAt (placeOfQuotient (steps * 2 ^ step) unitsPerOne) = steps * 2 ^ step := by
  have upper : steps * 2 ^ step < 2 ^ (step + 53) := by
    rw [Nat.add_comm, Nat.pow_add]
    exact Nat.mul_lt_mul_of_pos_right bound (Nat.two_pow_pos step)
  rw [placeOfQuotient_units]
  generalize units : steps * 2 ^ step = whole at upper ⊢
  generalize exponent : whole.log2 - 52 = other
  have finer : other ≤ step := by
    rcases Nat.eq_zero_or_pos whole with rfl | positive
    · exact exponent ▸ Nat.zero_le step
    · have most := (Nat.log2_lt positive.ne').mpr upper
      omega
  obtain ⟨rest, rfl⟩ : ∃ rest, step = other + rest := ⟨step - other, by omega⟩
  have split : whole = steps * 2 ^ rest * 2 ^ other := by
    rw [← units, Nat.pow_add]
    ring
  have below : whole < 2 ^ (other + 53) :=
    Nat.lt_log2_self.trans_le (Nat.pow_le_pow_right (by decide) (by omega))
  rw [split, roundQuotient_mul_self _ (Nat.two_pow_pos other)]
  apply unitsAt_steps
  · rw [split, Nat.add_comm, Nat.pow_add] at below
    have here := Nat.lt_of_mul_lt_mul_right below
    rw [binade_eq]
    omega
  · rw [or_iff_not_imp_left]
    intro later
    have large : whole ≠ 0 := by
      rintro rfl
      exact later (exponent ▸ rfl)
    have least : 2 ^ 52 * 2 ^ other ≤ whole := by
      rw [← Nat.pow_add]
      exact (Nat.pow_le_pow_right (by decide) (by omega)).trans (Nat.log2_self_le large)
    rw [split] at least
    exact Nat.le_of_mul_le_mul_right least (Nat.two_pow_pos other)

/-- No magnitude but zero is rounded to zero. -/
theorem placeOfQuotient_pos {units : Nat} (some : 0 < units) :
    0 < placeOfQuotient units unitsPerOne := by
  have positive : 0 < binade := by decide
  rw [placeOfQuotient_units]
  rcases Nat.eq_zero_or_pos (units.log2 - 52) with fine | coarse
  · have kept := roundQuotient_mul_self units Nat.one_pos
    rw [Nat.mul_one] at kept
    rw [fine, Nat.pow_zero, kept]
    omega
  · exact Nat.add_pos_right _ (Nat.mul_pos coarse positive)

theorem le_unitsAt {place step : Nat} (far : (step + 2) * binade ≤ place) :
    2 ^ (step + 53) ≤ unitsAt place := by
  have positive : 0 < binade := by decide
  have later : step + 2 ≤ place / binade := (Nat.le_div_iff_mul_le positive).mpr far
  have high : ¬ place < binade := by
    have first := Nat.le_mul_of_pos_left binade (show 0 < step + 2 by omega)
    omega
  have split : 2 ^ (step + 53) = binade * 2 ^ (step + 1) := by
    rw [binade_eq, ← Nat.pow_add]
    congr 1
    omega
  unfold unitsAt
  rw [if_neg high, split]
  exact Nat.mul_le_mul (Nat.le_add_right _ _) (Nat.pow_le_pow_right (by decide) (by omega))

theorem toInt?_eq_some {x : Double} {whole : Int} (reads : x.toInt? = some whole) :
    x.signedUnits = whole * unitsPerOne := by
  unfold toInt? at reads
  split at reads
  · next divides =>
    have here : (unitsPerOne : Int) ∣ x.signedUnits := by
      have whole : (unitsPerOne : Int) ∣ x.units :=
        Int.natCast_dvd_natCast.mpr (Nat.dvd_of_mod_eq_zero divides)
      unfold signedUnits
      split
      · exact Int.dvd_neg.mpr whole
      · exact whole
    rw [← Option.some.inj reads, Int.ediv_mul_cancel here]
  · nomatch reads

section Sums

variable {sum : Int} {x : Double}

/-- A number of units is rounded to its nearest place. -/
theorem place_of_ofUnits (rounds : Floating.ofUnits sum = .finite x) :
    x.place = placeOfQuotient sum.natAbs unitsPerOne ∧ x.negative = decide (sum < 0) := by
  unfold Floating.ofUnits Floating.ofQuotient Floating.atPlace at rounds
  split at rounds
  · obtain rfl := Floating.finite.inj rounds
    exact ⟨rfl, rfl⟩
  · cases rounds

/-- What is below zero is never rounded to zero. -/
theorem signedUnits_neg_of_ofUnits (rounds : Floating.ofUnits sum = .finite x) (below : sum < 0) :
    x.signedUnits < 0 := by
  obtain ⟨place, sign⟩ := place_of_ofUnits rounds
  have positive : 0 < placeOfQuotient sum.natAbs unitsPerOne := placeOfQuotient_pos (by omega)
  have units := units_pos (x := x) (by omega)
  rw [signedUnits, if_pos (sign.trans (decide_eq_true below))]
  omega

theorem signedUnits_of_ofUnits {natural : Nat} (rounds : Floating.ofUnits natural = .finite x) :
    x.signedUnits = unitsAt (placeOfQuotient natural unitsPerOne) := by
  obtain ⟨place, sign⟩ := place_of_ofUnits rounds
  have least : x.negative = false := sign.trans (decide_eq_false (by omega))
  rw [signedUnits, least, if_neg Bool.false_ne_true, units, place, Int.natAbs_natCast]

end Sums

/-- What is rounded to a code was far below the sizes where steps are longer than one. -/
theorem lt_of_unitsAt_eq_code {natural code : Nat} (small : code < 512)
    (value : unitsAt (placeOfQuotient natural unitsPerOne) = code * unitsPerOne) :
    natural < 512 * unitsPerOne := by
  obtain ⟨one, isOne, power⟩ := exists_two_pow
  have split : 2 ^ (1030 + 53) = 512 * unitsPerOne := by
    rw [power, isOne]
    decide +kernel
  have near : placeOfQuotient natural unitsPerOne < (1030 + 2) * binade := by
    by_contra far
    have large := le_unitsAt (Nat.le_of_not_lt far)
    rw [value, split] at large
    have less := Nat.mul_lt_mul_of_pos_right small unitsPerOne_pos
    omega
  have bound := (placeOfQuotient_lt_iff unitsPerOne_pos (by decide)).mp near
  have twice : (2 ^ 54 - 1) * (unitsPerOne * 2 ^ 1030) ≤ 2 * (512 * unitsPerOne) * unitsPerOne := by
    rw [← split, Nat.mul_comm unitsPerOne, ← Nat.mul_assoc]
    apply Nat.mul_le_mul_right
    decide +kernel
  rw [← Nat.mul_assoc] at bound
  exact Nat.lt_of_mul_lt_mul_left (Nat.lt_of_mul_lt_mul_right (bound.trans_le twice))

/-- One taken off a double of moderate size leaves a magnitude that is kept. -/
theorem unitsAt_placeOfQuotient_of_units {x : Double} {natural : Nat}
    (whole : x.units = natural + unitsPerOne) (bound : natural < 512 * unitsPerOne) :
    unitsAt (placeOfQuotient natural unitsPerOne) = natural := by
  obtain ⟨steps, step, -, split, room, full⟩ := exists_steps x.place
  have split : x.units = steps * 2 ^ step := split
  obtain ⟨one, -, power⟩ := exists_two_pow
  have positive := unitsPerOne_pos
  have fine : step ≤ one := by
    rcases full with rfl | full
    · exact Nat.zero_le one
    by_contra coarse
    have large : 2 ^ 52 * 2 ^ one ≤ x.units := by
      rw [split]
      exact Nat.mul_le_mul full (Nat.pow_le_pow_right (by decide) (by omega))
    rw [← power] at large
    omega
  -- The steps of the double divide one.
  have parts : unitsPerOne = 2 ^ (one - step) * 2 ^ step := by
    rw [power, ← Nat.pow_add, Nat.sub_add_cancel fine]
  have difference : natural = (steps - 2 ^ (one - step)) * 2 ^ step := by
    rw [Nat.sub_mul, ← split, ← parts]
    omega
  rw [binade_eq] at room
  rw [difference]
  exact unitsAt_placeOfQuotient ((Nat.sub_le _ _).trans_lt room)

/-- Only a whole number gives a code when one is taken off. -/
theorem signedUnits_of_addInt {x : Double} {code : Nat} (small : code < 512)
    (reads : (Floating.addInt (-1) (.finite x)).toInt? = some (code : Int)) :
    x.signedUnits = (code + 1 : Nat) * unitsPerOne := by
  rw [Floating.addInt] at reads
  cases rounds : Floating.ofUnits (x.signedUnits + -1 * unitsPerOne) with
  | infinite _ | nan =>
      rw [rounds] at reads
      nomatch reads
  | finite difference =>
      rw [rounds] at reads
      have value := toInt?_eq_some reads
      rcases lt_or_ge (x.signedUnits + -1 * unitsPerOne) 0 with below | least
      · have negative := signedUnits_neg_of_ofUnits rounds below
        have product : 0 ≤ (code : Int) * unitsPerOne := Int.mul_nonneg (by omega) (by omega)
        omega
      obtain ⟨natural, rest⟩ := Int.eq_ofNat_of_zero_le least
      rw [rest] at rounds
      rw [signedUnits_of_ofUnits rounds] at value
      have value := Int.ofNat.inj value
      have positive := unitsPerOne_pos
      have whole : x.units = natural + unitsPerOne := by
        unfold signedUnits at rest
        split at rest <;> omega
      rw [unitsAt_placeOfQuotient_of_units whole (lt_of_unitsAt_eq_code small value)] at value
      have sum : x.signedUnits = (natural + unitsPerOne : Nat) := by omega
      rw [sum, value, ← Nat.succ_mul, Int.natCast_mul]

end Double

end Decimal

theorem Kind.lt_of_ofCode? {code : Nat} {kind : Kind} (named : ofCode? code = some kind) :
    code < 26 :=
  (List.getElem?_eq_some_iff.mp named).1

namespace IndexEntry

open Decimal

/-- A value is a number that equals a whole one from one to twenty-six. -/
def CountsKind (number : Json Text.Wide) : Prop :=
  ∃ count : Nat, 1 ≤ count ∧ count ≤ 26 ∧
    (number = .int count ∨
      ∃ x : Double, number = .float (.finite x) ∧ x.signedUnits = count * unitsPerOne)

theorem exists_code_of_kindOf {number : Json Text.Wide} {kind : Kind}
    (reads : kindOf number = .ok kind) :
    ∃ code value, number.addInt? (-1) = some code ∧ code.asInt? = some (Int.ofNat value) ∧
      value < 26 := by
  unfold kindOf at reads
  split at reads
  · nomatch reads
  · next code less =>
    split at reads
    · next found =>
      unfold kindOfCode? at found
      split at found
      · next value whole => exact ⟨code, value, less, whole, Kind.lt_of_ofCode? found⟩
      · nomatch found
    · nomatch reads

/-- What is read as the number of a kind is one, or is the truth value that counts as one. -/
theorem countsKind_of_kindOf {number : Json Text.Wide} {kind : Kind}
    (reads : kindOf number = .ok kind) :
    CountsKind number ∨ number = .bool true := by
  obtain ⟨code, value, less, whole, small⟩ := exists_code_of_kindOf reads
  cases number with
  | int number =>
      cases less
      have same : number + -1 = value := Option.some.inj whole
      exact .inl ⟨value + 1, by omega, by omega, .inl (congrArg Json.int (by omega))⟩
  | float x =>
      cases less
      cases x with
      | finite x =>
          refine .inl ⟨value + 1, by omega, by omega, .inr ⟨x, rfl, ?_⟩⟩
          exact Double.signedUnits_of_addInt (by omega) whole
      | infinite _ | nan => nomatch whole
  | bool number =>
      cases number with
      | true => exact .inr rfl
      | false => nomatch reads
  | _ => nomatch less

end IndexEntry

end SymbolJump
