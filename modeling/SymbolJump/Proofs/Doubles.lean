/-
# Decimals that read back

The text of a double shows a decimal that reads back as the double, and this module says why there
is one with at most seventeen digits. A place among the magnitudes is a whole number of steps, and
the step is a power of two; a quotient nearer to the magnitude than half a step reads as that place,
where the step below the first magnitude of a binade is half as long. The decimals of seventeen
digits around a magnitude lie closer together than that, since two to the power of fifty-three is
less than ten to the power of sixteen.
-/
import Mathlib.Tactic.Linarith
import Mathlib.Tactic.Ring
import SymbolJump.Decimal.Shortest
import SymbolJump.Proofs.Waits

namespace SymbolJump.Decimal

/-- A quotient rounds to the whole number that it is nearest to. -/
theorem roundQuotient_eq_of_near {numerator denominator : Nat} (whole : Nat)
    (above : 2 * (whole * denominator) < 2 * numerator + denominator)
    (below : 2 * numerator < 2 * (whole * denominator) + denominator) :
    roundQuotient numerator denominator = whole := by
  have positive : 0 < denominator := by omega
  have parts := Nat.div_add_mod numerator denominator
  have part := Nat.mod_lt numerator positive
  rw [Nat.mul_comm denominator] at parts
  have least : numerator / denominator ≤ whole := by
    refine Nat.le_of_lt_succ (Nat.lt_of_mul_lt_mul_right (a := denominator) ?_)
    rw [Nat.succ_mul]
    omega
  have most : whole ≤ numerator / denominator + 1 := by
    refine Nat.le_of_lt_succ (Nat.lt_of_mul_lt_mul_right (a := denominator) ?_)
    rw [Nat.succ_mul, Nat.succ_mul]
    omega
  unfold roundQuotient
  dsimp only
  rcases Nat.eq_or_lt_of_le least with here | up
  · rw [here] at parts ⊢
    rw [if_pos (by omega)]
  · obtain rfl : whole = numerator / denominator + 1 := by omega
    rw [Nat.succ_mul (numerator / denominator)] at above below
    rw [if_neg (by omega), if_pos (by omega)]

namespace Double

/-- A magnitude is a whole number of steps at its place. -/
theorem exists_steps (place : Nat) :
    ∃ steps step, place = steps + step * binade ∧ unitsAt place = steps * 2 ^ step ∧
      steps < 2 * binade ∧ (step = 0 ∨ binade ≤ steps) := by
  have positive : 0 < binade := by decide
  unfold unitsAt
  split
  · next low => exact ⟨place, 0, by omega, by omega, by omega, .inl rfl⟩
  · next high =>
    have later : 0 < place / binade := Nat.div_pos (by omega) positive
    have rest := Nat.mod_lt place positive
    refine ⟨binade + place % binade, place / binade - 1, ?_, rfl, by omega, .inr (by omega)⟩
    have parts := Nat.div_add_mod place binade
    have last : binade * (place / binade) = binade + (place / binade - 1) * binade := by
      rw [Nat.sub_mul, Nat.mul_comm, Nat.one_mul,
        Nat.add_sub_cancel' (Nat.le_mul_of_pos_left _ later)]
    omega

theorem log2_sub_eq {whole step : Nat} (upper : whole < 2 ^ (step + 53))
    (lower : step = 0 ∨ 2 ^ (step + 52) ≤ whole) : whole.log2 - 52 = step := by
  rcases lower with rfl | lower
  · have small : whole.log2 < 53 := by
      rcases Nat.eq_zero_or_pos whole with rfl | positive
      · decide
      · exact (Nat.log2_lt positive.ne').mpr upper
    omega
  · have positive : whole ≠ 0 := by
      rintro rfl
      exact absurd lower (by simp)
    have least : step + 52 ≤ whole.log2 := (Nat.le_log2 positive).mpr lower
    have most : whole.log2 < step + 53 := (Nat.log2_lt positive).mpr upper
    omega

section Near

variable {numerator denominator steps step : Nat}

/-- In a binade, a quotient reads as the place whose magnitude it is nearest to. -/
theorem placeOfQuotient_of_binade
    (lower : step = 0 ∨ 2 ^ (step + 52) ≤ numerator * unitsPerOne / denominator)
    (upper : numerator * unitsPerOne / denominator < 2 ^ (step + 53))
    (above : 2 * (steps * (denominator * 2 ^ step)) <
      2 * (numerator * unitsPerOne) + denominator * 2 ^ step)
    (below : 2 * (numerator * unitsPerOne) <
      2 * (steps * (denominator * 2 ^ step)) + denominator * 2 ^ step) :
    placeOfQuotient numerator denominator = steps + step * binade := by
  rw [placeOfQuotient_eq]
  dsimp only
  rw [log2_sub_eq upper lower, roundQuotient_eq_of_near steps above below]

/-- A quotient that is just below the first magnitude of a binade reads as its place. -/
theorem placeOfQuotient_of_edge (positive : 0 < denominator)
    (lower : numerator * unitsPerOne < 2 ^ 52 * (denominator * 2 ^ (step + 1)))
    (edge : 4 * (2 ^ 52 * (denominator * 2 ^ (step + 1))) <
      4 * (numerator * unitsPerOne) + denominator * 2 ^ (step + 1)) :
    placeOfQuotient numerator denominator = binade + (step + 1) * binade := by
  have double : denominator * 2 ^ (step + 1) = 2 * (denominator * 2 ^ step) := by
    rw [Nat.pow_succ]
    ring
  rw [double] at lower edge
  have least : 2 ^ (step + 52) ≤ numerator * unitsPerOne / denominator := by
    apply (Nat.le_div_iff_mul_le positive).mpr
    have split : 2 ^ (step + 52) * denominator = 2 ^ 52 * (denominator * 2 ^ step) := by
      rw [Nat.pow_add]
      ring
    omega
  have most : numerator * unitsPerOne / denominator < 2 ^ (step + 53) := by
    apply Nat.div_lt_of_lt_mul
    have split : denominator * 2 ^ (step + 53) = 2 ^ 53 * (denominator * 2 ^ step) := by
      rw [Nat.pow_add]
      ring
    omega
  -- The quotient lies in the binade before, one step below its last magnitude or less.
  have here : placeOfQuotient numerator denominator = 2 ^ 53 + step * binade :=
    placeOfQuotient_of_binade (.inr least) most (by omega) (by omega)
  rw [here, binade_eq]
  omega

/-- A quotient reads as the place whose magnitude it is nearest to. Below the first magnitude of a
binade the places lie twice as dense. -/
theorem placeOfQuotient_of_near (bound : steps < 2 * binade) (full : step = 0 ∨ binade ≤ steps)
    (above : 2 * (steps * (denominator * 2 ^ step)) <
      2 * (numerator * unitsPerOne) + denominator * 2 ^ step)
    (below : 2 * (numerator * unitsPerOne) <
      2 * (steps * (denominator * 2 ^ step)) + denominator * 2 ^ step)
    (edge : steps = binade → 4 * (steps * (denominator * 2 ^ step)) <
      4 * (numerator * unitsPerOne) + denominator * 2 ^ step) :
    placeOfQuotient numerator denominator = steps + step * binade := by
  have positive : 0 < denominator := by
    rcases Nat.eq_zero_or_pos denominator with rfl | positive
    · omega
    · exact positive
  have upper : numerator * unitsPerOne / denominator < 2 ^ (step + 53) := by
    have most : (steps + 1) * (denominator * 2 ^ step) ≤ 2 ^ 53 * (denominator * 2 ^ step) :=
      Nat.mul_le_mul_right _ bound
    have split : denominator * 2 ^ (step + 53) = 2 ^ 53 * (denominator * 2 ^ step) := by
      rw [Nat.pow_add]
      ring
    rw [Nat.succ_mul] at most
    apply Nat.div_lt_of_lt_mul
    omega
  by_cases low : step = 0 ∨ 2 ^ (step + 52) ≤ numerator * unitsPerOne / denominator
  · exact placeOfQuotient_of_binade low upper above below
  obtain ⟨later, lower⟩ := not_or.mp low
  obtain ⟨step, rfl⟩ : ∃ earlier, step = earlier + 1 := ⟨step - 1, by omega⟩
  have lower : numerator * unitsPerOne < 2 ^ 52 * (denominator * 2 ^ (step + 1)) := by
    have here := (Nat.div_lt_iff_lt_mul positive).mp (Nat.lt_of_not_le lower)
    calc numerator * unitsPerOne < 2 ^ (step + 1 + 52) * denominator := here
      _ = 2 ^ 52 * (denominator * 2 ^ (step + 1)) := by
        rw [Nat.pow_add]
        ring
  have first : steps = binade := by
    refine Nat.le_antisymm ?_ (full.resolve_left later)
    apply Nat.le_of_lt_succ
    apply Nat.lt_of_mul_lt_mul_right (a := denominator * 2 ^ (step + 1))
    rw [Nat.succ_mul, binade_eq]
    omega
  subst first
  exact placeOfQuotient_of_edge positive lower (edge rfl)

end Near

theorem roundQuotient_mul_right (numerator denominator : Nat) {scale : Nat} (positive : 0 < scale) :
    roundQuotient (numerator * scale) (denominator * scale) =
      roundQuotient numerator denominator := by
  unfold roundQuotient
  simp only [Nat.mul_div_mul_right _ _ positive, Nat.mul_mod_mul_right, ← Nat.mul_assoc,
    Nat.mul_lt_mul_right positive]

theorem placeOfQuotient_mul_right (numerator denominator : Nat) {scale : Nat}
    (positive : 0 < scale) :
    placeOfQuotient (numerator * scale) (denominator * scale) =
      placeOfQuotient numerator denominator := by
  have regroup (a b : Nat) : a * scale * b = a * b * scale := Nat.mul_right_comm a scale b
  rw [placeOfQuotient_eq, placeOfQuotient_eq]
  dsimp only
  rw [regroup, regroup, Nat.mul_div_mul_right _ _ positive, roundQuotient_mul_right _ _ positive]

/-- Equal quotients read as the same place. -/
theorem placeOfQuotient_congr {a b c d : Nat} (left : 0 < b) (right : 0 < d)
    (same : a * d = c * b) : placeOfQuotient a b = placeOfQuotient c d := by
  rw [← placeOfQuotient_mul_right a b right, ← placeOfQuotient_mul_right c d left, same,
    Nat.mul_comm b d]

theorem powerOfTen_snd_pos (exponent : Int) : 0 < (powerOfTen exponent).2 := by
  unfold powerOfTen
  split
  · exact Nat.one_pos
  · exact Nat.pow_pos (by decide)

theorem powerOfTen_fst_pos (exponent : Int) : 0 < (powerOfTen exponent).1 := by
  unfold powerOfTen
  split
  · exact Nat.pow_pos (by decide)
  · exact Nat.one_pos

/-- A power of ten is the quotient of two others. -/
theorem powerOfTen_cross {exponent : Int} (up down : Nat) (split : exponent = up - down) :
    (powerOfTen exponent).1 * 10 ^ down = (powerOfTen exponent).2 * 10 ^ up := by
  subst split
  unfold powerOfTen
  split
  · next high =>
    obtain ⟨rest, rfl⟩ : ∃ rest, up = down + rest := ⟨up - down, by omega⟩
    have whole : ((down + rest : Nat) - down : Int).toNat = rest := by omega
    rw [whole, Nat.one_mul, Nat.pow_add, Nat.mul_comm]
    rfl
  · next low =>
    obtain ⟨rest, rfl⟩ : ∃ rest, down = up + rest := ⟨down - up, by omega⟩
    have whole : (-(up - (up + rest : Nat) : Int)).toNat = rest := by omega
    rw [whole, Nat.one_mul, Nat.pow_add, Nat.mul_comm]
    rfl

theorem toDigits_mul_pow {digits : Nat} (some : 0 < digits) (zeros : Nat) :
    Nat.toDigits 10 (digits * 10 ^ zeros) =
      Nat.toDigits 10 digits ++ List.replicate zeros '0' := by
  induction zeros with
  | zero => simp
  | succ zeros ih =>
      have positive : 0 < digits * 10 ^ zeros := Nat.mul_pos some (Nat.pow_pos (by decide))
      have last := Nat.toDigits_append_toDigits (b := 10) (by decide) positive (d := 0) (by decide)
      rw [ih, Nat.toDigits_zero, List.append_assoc, ← List.replicate_succ'] at last
      rw [last, Nat.pow_succ, Nat.add_zero]
      congr 1
      ring

/-- A decimal within the limits of what is read is read as the quotient that it is. -/
theorem placeOfDecimal_eq {digits : Nat} {exponent : Int} (some : digits ≠ 0)
    (low : -400 ≤ exponent + (Nat.toDigits 10 digits).length) (high : exponent ≤ 400) :
    placeOfDecimal digits exponent =
      placeOfQuotient (digits * (powerOfTen exponent).1) (powerOfTen exponent).2 := by
  unfold placeOfDecimal powerOfTen
  dsimp only
  rw [if_neg (by omega), if_neg (by omega)]
  split <;> simp

/-- Zeros at the end of the digits are made up for by the exponent. -/
theorem placeOfDecimal_mul_pow (digits zeros : Nat) {exponent : Int} (high : exponent ≤ 400) :
    placeOfDecimal (digits * 10 ^ zeros) (exponent - zeros) = placeOfDecimal digits exponent := by
  rcases Nat.eq_zero_or_pos digits with rfl | some
  · simp [placeOfDecimal]
  have positive : digits * 10 ^ zeros ≠ 0 :=
    (Nat.mul_pos some (Nat.pow_pos (by decide))).ne'
  have width : (Nat.toDigits 10 (digits * 10 ^ zeros)).length =
      (Nat.toDigits 10 digits).length + zeros := by
    rw [toDigits_mul_pow some, List.length_append, List.length_replicate]
  by_cases low : -400 ≤ exponent + (Nat.toDigits 10 digits).length
  · rw [placeOfDecimal_eq some.ne' low high,
      placeOfDecimal_eq positive (by rw [width]; omega) (by omega)]
    obtain ⟨up, down, split⟩ : ∃ up down : Nat, exponent = up - down :=
      ⟨exponent.toNat, (-exponent).toNat, by omega⟩
    have long : (powerOfTen (exponent - zeros)).1 * _ = _ :=
      powerOfTen_cross up (down + zeros) (by omega)
    have short := powerOfTen_cross up down split
    refine placeOfQuotient_congr (powerOfTen_snd_pos _) (powerOfTen_snd_pos _) ?_
    refine Nat.eq_of_mul_eq_mul_right (Nat.pow_pos (n := down) (by decide : 0 < 10)) ?_
    rw [Nat.pow_add] at long
    generalize powerOfTen (exponent - zeros) = power at *
    generalize powerOfTen exponent = other at *
    calc digits * 10 ^ zeros * power.1 * other.2 * 10 ^ down
        = digits * other.2 * (power.1 * (10 ^ down * 10 ^ zeros)) := by ring
      _ = digits * power.2 * (other.2 * 10 ^ up) := by rw [long]; ring
      _ = digits * other.1 * power.2 * 10 ^ down := by rw [← short]; ring
  · unfold placeOfDecimal
    dsimp only
    rw [if_pos (.inr (by rw [width]; omega)), if_pos (.inr (by omega))]

/-- The number of decimal digits of a magnitude that is counted in fractions of one. -/
def scaledWidth (fractions units : Nat) : Nat :=
  (Nat.toDigits 10 (units * fractions / unitsPerOne)).length

theorem exists_leadingExponent_eq (units : Nat) :
    ∃ far : Nat, far = 400 ∧
      leadingExponent units = (scaledWidth (Nat.pow 10 far) units : Int) - 401 := by
  obtain ⟨far, isFar⟩ : ∃ far, far = 400 := ⟨_, rfl⟩
  refine ⟨far, isFar, ?_⟩
  rw [leadingExponent, ← isFar, scaledWidth]

theorem exists_two_pow : ∃ one, one = 1074 ∧ unitsPerOne = 2 ^ one := by
  refine ⟨_, rfl, ?_⟩
  decide +kernel

theorem unitsPerOne_pos : 0 < unitsPerOne := by
  obtain ⟨one, _, power⟩ := exists_two_pow
  rw [power]
  exact Nat.two_pow_pos one

theorem two_pow_le_ten_pow (third : Nat) : 2 ^ (3 * third) ≤ 10 ^ third := by
  rw [Nat.pow_mul]
  exact Nat.pow_le_pow_left (by decide) third

theorem unitsPerOne_le {far : Nat} (deep : 358 ≤ far) : unitsPerOne ≤ 10 ^ far := by
  obtain ⟨one, isOne, power⟩ := exists_two_pow
  rw [power]
  exact (Nat.pow_le_pow_right (by decide) (by omega)).trans (two_pow_le_ten_pow far)

/-- A magnitude is less than a power of ten that is more than two to the power of 1024. -/
theorem unitsAt_lt {place third : Nat} (finite : place < magnitudes) (large : 342 ≤ third) :
    unitsAt place < 10 ^ third * unitsPerOne := by
  obtain ⟨steps, step, split, value, bound, full⟩ := exists_steps place
  obtain ⟨one, isOne, power⟩ := exists_two_pow
  have last : step ≤ 2045 := by
    have limit : magnitudes = 2047 * 2 ^ 52 := rfl
    rw [binade_eq] at *
    omega
  calc unitsAt place = steps * 2 ^ step := value
    _ < 2 ^ 53 * 2 ^ step := Nat.mul_lt_mul_of_pos_right bound (Nat.two_pow_pos step)
    _ = 2 ^ (53 + step) := (Nat.pow_add 2 53 step).symm
    _ ≤ 2 ^ (3 * third + one) := Nat.pow_le_pow_right (by decide) (by omega)
    _ = 2 ^ (3 * third) * unitsPerOne := by rw [Nat.pow_add, power]
    _ ≤ 10 ^ third * unitsPerOne := Nat.mul_le_mul_right _ (two_pow_le_ten_pow third)

section Neighbours

variable {far units count : Nat} {decimal : Scaled}

theorem scaledWidth_pos (fractions units : Nat) : 0 < scaledWidth fractions units :=
  Nat.length_toDigits_pos

theorem scaledWidth_lower (deep : 358 ≤ far) (some : 0 < units) :
    10 ^ scaledWidth (Nat.pow 10 far) units * unitsPerOne ≤ 10 * (units * 10 ^ far) := by
  have bound : 10 ^ (scaledWidth (Nat.pow 10 far) units - 1) ≤ units * 10 ^ far / unitsPerOne := by
    rcases Nat.eq_zero_or_pos (scaledWidth (Nat.pow 10 far) units - 1) with single | more
    · rw [single]
      exact Nat.div_pos ((unitsPerOne_le deep).trans (Nat.le_mul_of_pos_left _ some))
        unitsPerOne_pos
    · refine Nat.le_of_not_lt fun short => ?_
      have width : scaledWidth (Nat.pow 10 far) units ≤ scaledWidth (Nat.pow 10 far) units - 1 :=
        (Nat.length_toDigits_le_iff (b := 10) (by decide) more).mpr short
      omega
  have product := (Nat.le_div_iff_mul_le unitsPerOne_pos).mp bound
  obtain ⟨width, same⟩ : ∃ width, scaledWidth (Nat.pow 10 far) units = width + 1 :=
    ⟨scaledWidth (Nat.pow 10 far) units - 1, (Nat.sub_add_cancel (scaledWidth_pos _ _)).symm⟩
  rw [same, Nat.add_sub_cancel] at product
  rw [same, Nat.pow_succ, Nat.mul_comm (10 ^ width), Nat.mul_assoc]
  exact Nat.mul_le_mul_left 10 product

theorem scaledWidth_upper (far units : Nat) :
    units * 10 ^ far < 10 ^ scaledWidth (Nat.pow 10 far) units * unitsPerOne := by
  have bound := (Nat.length_toDigits_le_iff (b := 10) (n := units * 10 ^ far / unitsPerOne)
    (by decide) Nat.length_toDigits_pos).mp (Nat.le_refl _)
  exact (Nat.div_lt_iff_lt_mul unitsPerOne_pos).mp bound

theorem scaledWidth_le {third : Nat} (large : 342 ≤ third) (far : Nat) (x : Double) :
    scaledWidth (Nat.pow 10 far) x.units ≤ third + far := by
  refine (Nat.length_toDigits_le_iff (by decide) (by omega)).mpr ?_
  refine (Nat.div_lt_iff_lt_mul unitsPerOne_pos).mpr ?_
  calc x.units * 10 ^ far < 10 ^ third * unitsPerOne * 10 ^ far :=
        Nat.mul_lt_mul_of_pos_right (unitsAt_lt x.place_lt large) (Nat.pow_pos (by decide))
    _ = 10 ^ (third + far) * unitsPerOne := by rw [Nat.pow_add, Nat.mul_right_comm]

theorem around_eq (units : Nat) (exponent : Int) :
    around units exponent =
      let grid := powerOfTen exponent
      let below := units * grid.2 / (unitsPerOne * grid.1)
      let beyond := units * grid.2 % (unitsPerOne * grid.1)
      if 2 * beyond < unitsPerOne * grid.1 ∨
          2 * beyond = unitsPerOne * grid.1 ∧ below % 2 = 0 then
        [⟨below, exponent⟩, ⟨below + 1, exponent⟩]
      else [⟨below + 1, exponent⟩, ⟨below, exponent⟩] := by
  unfold around
  generalize powerOfTen exponent = grid
  rcases grid with ⟨num, den⟩
  rfl

/-- One of the decimals next to a magnitude is at most half a step of their grid away. -/
theorem exists_near_around (units : Nat) (exponent : Int) :
    ∃ decimal ∈ around units exponent,
      2 * (decimal.digits * (unitsPerOne * (powerOfTen exponent).1)) ≤
        2 * (units * (powerOfTen exponent).2) + unitsPerOne * (powerOfTen exponent).1 ∧
      2 * (units * (powerOfTen exponent).2) ≤
        2 * (decimal.digits * (unitsPerOne * (powerOfTen exponent).1)) +
          unitsPerOne * (powerOfTen exponent).1 := by
  rw [around_eq]
  dsimp only
  have parts := Nat.div_add_mod (units * (powerOfTen exponent).2)
    (unitsPerOne * (powerOfTen exponent).1)
  have part := Nat.mod_lt (units * (powerOfTen exponent).2) (Nat.mul_pos unitsPerOne_pos
    (powerOfTen_fst_pos _) : 0 < unitsPerOne * (powerOfTen exponent).1)
  generalize unitsPerOne * (powerOfTen exponent).1 = grid at *
  generalize units * (powerOfTen exponent).2 = value at *
  rw [Nat.mul_comm] at parts
  split
  · exact ⟨_, List.mem_cons_self, by dsimp only; omega, by dsimp only; omega⟩
  · refine ⟨_, List.mem_cons_self, ?_, ?_⟩ <;> dsimp only <;>
      rw [Nat.succ_mul (value / grid)] <;> omega

theorem digits_of_mem_around {exponent : Int} {least most : Nat}
    (lower : least * (unitsPerOne * (powerOfTen exponent).1) ≤ units * (powerOfTen exponent).2)
    (upper : units * (powerOfTen exponent).2 < unitsPerOne * (powerOfTen exponent).1 * most)
    (member : decimal ∈ around units exponent) :
    decimal.exponent = exponent ∧ least ≤ decimal.digits ∧ decimal.digits ≤ most := by
  have lower := (Nat.le_div_iff_mul_le
    (Nat.mul_pos unitsPerOne_pos (powerOfTen_fst_pos exponent))).mpr lower
  have upper := Nat.div_lt_of_lt_mul upper
  rw [around_eq] at member
  dsimp only at member
  generalize units * (powerOfTen exponent).2 / (unitsPerOne * (powerOfTen exponent).1) =
    below at *
  split at member <;> simp only [List.mem_cons, List.not_mem_nil, or_false] at member <;>
    rcases member with rfl | rfl <;> exact ⟨rfl, by dsimp only; omega, by dsimp only; omega⟩

/-- The neighbours of one digit more than a number lie on a grid that is set by the width. -/
theorem exists_grid (x : Double) (count : Nat) :
    ∃ far, 358 ≤ far ∧ ∃ exponent : Int,
      exponent = (scaledWidth (Nat.pow 10 far) x.units : Int) - (far + (count + 1) : Nat) ∧
        neighbours x.units (count + 1) = around x.units exponent ∧
        -400 ≤ exponent + count ∧ exponent + count ≤ 341 := by
  obtain ⟨far, isFar, leading⟩ := exists_leadingExponent_eq x.units
  have narrow := scaledWidth_le (Nat.le_refl 342) far x
  have wide := scaledWidth_pos (Nat.pow 10 far) x.units
  have grid : neighbours x.units (count + 1) =
      around x.units (leadingExponent x.units + 1 - ((count + 1 : Nat) : Int)) := rfl
  exact ⟨far, by omega, _, by omega, grid, by omega, by omega⟩

section Grid

variable {exponent : Int}
  (here : exponent = (scaledWidth (Nat.pow 10 far) units : Int) - (far + (count + 1) : Nat))

include here

/-- A magnitude has at least as many digits on its grid as it is made for. -/
theorem grid_lower (deep : 358 ≤ far) (some : 0 < units) :
    10 ^ count * (unitsPerOne * (powerOfTen exponent).1) ≤ units * (powerOfTen exponent).2 := by
  have cross := powerOfTen_cross _ _ here
  have width := scaledWidth_lower deep some
  generalize powerOfTen exponent = grid at *
  refine Nat.le_of_mul_le_mul_right ?_ (Nat.pow_pos (n := far + 1) (by decide : 0 < 10))
  calc 10 ^ count * (unitsPerOne * grid.1) * 10 ^ (far + 1)
      = unitsPerOne * (grid.1 * 10 ^ (far + (count + 1))) := by ring
    _ = grid.2 * (10 ^ scaledWidth (Nat.pow 10 far) units * unitsPerOne) := by rw [cross]; ring
    _ ≤ grid.2 * (10 * (units * 10 ^ far)) := Nat.mul_le_mul_left _ width
    _ = units * grid.2 * 10 ^ (far + 1) := by ring

/-- A magnitude has no more digits on its grid than it is made for. -/
theorem grid_upper :
    units * (powerOfTen exponent).2 < unitsPerOne * (powerOfTen exponent).1 * 10 ^ (count + 1) := by
  have cross := powerOfTen_cross _ _ here
  have width := scaledWidth_upper far units
  have positive : 0 < (powerOfTen exponent).2 := powerOfTen_snd_pos _
  generalize powerOfTen exponent = grid at *
  refine Nat.lt_of_mul_lt_mul_right (a := 10 ^ far) ?_
  calc units * grid.2 * 10 ^ far = grid.2 * (units * 10 ^ far) := by ring
    _ < grid.2 * (10 ^ scaledWidth (Nat.pow 10 far) units * unitsPerOne) :=
      Nat.mul_lt_mul_of_pos_left width positive
    _ = unitsPerOne * (grid.1 * 10 ^ (far + (count + 1))) := by rw [cross]; ring
    _ = unitsPerOne * grid.1 * 10 ^ (count + 1) * 10 ^ far := by ring

end Grid

end Neighbours

theorem units_pos {x : Double} (some : x.place ≠ 0) : 0 < x.units := by
  obtain ⟨steps, step, split, value, _, full⟩ := exists_steps x.place
  have value : x.units = steps * 2 ^ step := value
  have positive : steps ≠ 0 := by
    rintro rfl
    rcases full with rfl | full
    · exact some (by omega)
    · exact absurd full (by decide)
  exact value.symm ▸ Nat.mul_pos (Nat.pos_of_ne_zero positive) (Nat.two_pow_pos step)

/-- The decimals next to a magnitude have the number of digits asked for, or are the power of ten
after them. -/
theorem digits_of_mem_neighbours {x : Double} (some : x.place ≠ 0) {count : Nat}
    {decimal : Scaled} (member : decimal ∈ neighbours x.units (count + 1)) :
    10 ^ count ≤ decimal.digits ∧ decimal.digits ≤ 10 ^ (count + 1) ∧
      -400 ≤ decimal.exponent + count ∧ decimal.exponent + count ≤ 341 := by
  obtain ⟨far, deep, exponent, here, neighbours, range⟩ := exists_grid x count
  rw [neighbours] at member
  obtain ⟨same, least, most⟩ := digits_of_mem_around (grid_lower here deep (units_pos some))
    (grid_upper here) member
  rw [same]
  exact ⟨least, most, range⟩

/-- Some decimal of seventeen digits reads back as a magnitude. -/
theorem exists_seventeen_digits {x : Double} (some : x.place ≠ 0) :
    ∃ decimal ∈ neighbours x.units 17, readsBack x.place decimal = true := by
  obtain ⟨far, deep, exponent, here, neighbours, low, high⟩ := exists_grid x 16
  obtain ⟨decimal, member, upper, lower⟩ := exists_near_around x.units exponent
  refine ⟨decimal, neighbours ▸ member, ?_⟩
  have dense := grid_lower here deep (units_pos some)
  obtain ⟨same, least, most⟩ := digits_of_mem_around dense (grid_upper here) member
  have digits : decimal.digits ≠ 0 := (Nat.lt_of_lt_of_le (by decide) least).ne'
  have long : 16 < (Nat.toDigits 10 decimal.digits).length :=
    Nat.lt_of_not_le fun short =>
      absurd ((Nat.length_toDigits_le_iff (by decide) (by decide)).mp short) (Nat.not_lt.mpr least)
  obtain ⟨steps, step, split, value, bound, full⟩ := exists_steps x.place
  have value : x.units = steps * 2 ^ step := value
  clear here
  rw [readsBack, beq_iff_eq, placeOfDecimal_eq digits (by omega) (by omega), same, split]
  have product : x.units * (powerOfTen exponent).2 =
      steps * ((powerOfTen exponent).2 * 2 ^ step) := by
    rw [value]
    ring
  have scaled : decimal.digits * (powerOfTen exponent).1 * unitsPerOne =
      decimal.digits * (unitsPerOne * (powerOfTen exponent).1) := by ring
  have whole : 0 < (powerOfTen exponent).2 * 2 ^ step :=
    Nat.mul_pos (powerOfTen_snd_pos _) (Nat.two_pow_pos step)
  have room : steps * ((powerOfTen exponent).2 * 2 ^ step) ≤
      (2 * binade - 1) * ((powerOfTen exponent).2 * 2 ^ step) := Nat.mul_le_mul_right _ (by omega)
  rw [product] at dense upper lower
  rw [binade_eq] at room
  refine placeOfQuotient_of_near bound full ?_ ?_ fun first => ?_ <;> rw [scaled]
  all_goals
    generalize (powerOfTen exponent).2 * 2 ^ step = gap at *
    generalize unitsPerOne * (powerOfTen exponent).1 = grid at *
    generalize decimal.digits * grid = near at *
  · omega
  · omega
  · rw [first, binade_eq] at *
    omega

theorem shortest_eq {x : Double} (some : x.place ≠ 0) :
    x.shortest = (((List.range 17).flatMap fun count => neighbours x.units (count + 1)).find?
      (readsBack x.place)).getD ⟨0, 0⟩ := by
  unfold shortest
  rw [if_neg some]

/-- The shortest decimal of a magnitude is one of its neighbours, and reads back as it. -/
theorem exists_shortest {x : Double} (some : x.place ≠ 0) :
    ∃ count, x.shortest ∈ neighbours x.units (count + 1) ∧
      readsBack x.place x.shortest = true := by
  obtain ⟨long, member, reads⟩ := exists_seventeen_digits some
  have among : long ∈ (List.range 17).flatMap fun count => neighbours x.units (count + 1) :=
    List.mem_flatMap.mpr ⟨16, List.mem_range.mpr (by decide), member⟩
  obtain ⟨decimal, found⟩ :=
    Option.isSome_iff_exists.mp (List.find?_isSome.mpr ⟨long, among, reads⟩)
  obtain ⟨count, _, member⟩ := List.mem_flatMap.mp (List.mem_of_find?_eq_some found)
  rw [shortest_eq some, found, Option.getD_some]
  exact ⟨count, member, List.find?_some found⟩

/-- The shortest decimal of a magnitude reads back as it, and stays within the limits of what is
read. -/
theorem shortest_reads_back {x : Double} (some : x.place ≠ 0) :
    placeOfDecimal x.shortest.digits x.shortest.exponent = x.place ∧
      0 < x.shortest.digits ∧ x.shortest.exponent ≤ 400 ∧
      x.shortest.exponent + (Nat.toDigits 10 x.shortest.digits).length ≤ 400 := by
  obtain ⟨count, member, reads⟩ := exists_shortest some
  obtain ⟨least, most, low, high⟩ := digits_of_mem_neighbours some member
  have positive : 0 < x.shortest.digits :=
    Nat.lt_of_lt_of_le (Nat.pow_pos (by decide)) least
  have width : (Nat.toDigits 10 x.shortest.digits).length ≤ count + 2 :=
    (Nat.length_toDigits_le_iff (by decide) (by omega)).mpr
      (most.trans_lt (Nat.pow_lt_pow_right (by decide) (by omega)))
  exact ⟨beq_iff_eq.mp reads, positive, by omega, by omega⟩

end Double

end SymbolJump.Decimal
