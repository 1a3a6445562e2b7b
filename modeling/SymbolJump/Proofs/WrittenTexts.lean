/-
# Texts read back

A written text is read as one token with the units that it was written for. The pass over the
characters of a text collects units: a unit stands for itself, follows a backslash, or is written by
its number. A written text is in ASCII, so every one of its characters is a single unit.
-/
import Mathlib.Data.Option.Basic
import SymbolJump.Json.Token
import SymbolJump.Json.Writer
import SymbolJump.Proofs.WideTexts

namespace SymbolJump

open Text

namespace Text

theorem hexValue?_hexDigit {value : Nat} (small : value < 16) :
    hexValue? (hexDigit value) = some value := by
  have each : ∀ digit : Fin 16, hexValue? (hexDigit digit) = some digit.val := by decide
  exact each ⟨value, small⟩

end Text

namespace Json

/-- What is read is the tokens of one character and then those of the rest. -/
theorem tokensFrom_cons {mode next : Mode} {c : Char} {tokens : List Token}
    (step : mode.take c = some (tokens, next)) (rest : List Char) :
    tokensFrom mode (c :: rest) = (tokensFrom next rest).map (tokens ++ ·) := by
  rw [tokensFrom, step, Option.bind_eq_bind, Option.bind_some]
  dsimp only
  cases tokensFrom next rest <;> rfl

theorem tokensFrom_cons_of_silent {mode : Mode} (next : Mode) {c : Char}
    (step : mode.take c = some ([], next)) (rest : List Char) :
    tokensFrom mode (c :: rest) = tokensFrom next rest := by
  rw [tokensFrom_cons step]
  cases tokensFrom next rest <;> rfl

section Units

variable (units : Wide)

/-- A digit of a code unit is read with those before it. -/
theorem take_inCodeUnit {digits : List Nat} {value : Nat} (small : value < 16) :
    (Mode.inCodeUnit units digits).take (hexDigit value) =
      some (if digits.length = 3
        then ([], .inText (.ofNat (ofDigits 16 (digits ++ [value])) :: units))
        else ([], .inCodeUnit units (digits ++ [value]))) := by
  rw [Mode.take, hexValue?_hexDigit small, Option.map_some]

/-- A unit is read back from its number. -/
theorem tokensFrom_numbered (unit : UInt16) (rest : List Char) :
    tokensFrom (.inText units) ('\\' :: 'u' :: hexPlaces 4 unit.toNat ++ rest) =
      tokensFrom (.inText (unit :: units)) rest := by
  have small := unit.toNat_lt
  generalize here : unit.toNat = n at *
  have written : '\\' :: 'u' :: hexPlaces 4 n ++ rest =
      '\\' :: 'u' :: hexDigit (n / 16 / 16 / 16 % 16) :: hexDigit (n / 16 / 16 % 16) ::
        hexDigit (n / 16 % 16) :: hexDigit (n % 16) :: rest := by
    simp [hexPlaces]
  have value : ofDigits 16 [n / 16 / 16 / 16 % 16, n / 16 / 16 % 16, n / 16 % 16, n % 16] = n := by
    simp [ofDigits]
    omega
  have back : UInt16.ofNat n = unit := here ▸ UInt16.ofNat_toNat
  have digit (n : Nat) : n % 16 < 16 := Nat.mod_lt n (by decide)
  rw [written, tokensFrom_cons_of_silent (.afterBackslash units) rfl,
    tokensFrom_cons_of_silent (.inCodeUnit units []) rfl,
    tokensFrom_cons_of_silent _ (take_inCodeUnit units (digit _)),
    tokensFrom_cons_of_silent _ (take_inCodeUnit units (digit _)),
    tokensFrom_cons_of_silent _ (take_inCodeUnit units (digit _)),
    tokensFrom_cons_of_silent _ (take_inCodeUnit units (digit _)), ← back]
  exact congrArg (fun n => tokensFrom (.inText (UInt16.ofNat n :: units)) rest) value

/-- A unit is read back from a backslash and the character that stands for it. -/
theorem tokensFrom_escaped {c : Char} {unit : UInt16} (other : c ≠ 'u')
    (stands : escaped? c = some unit) (rest : List Char) :
    tokensFrom (.inText units) ('\\' :: c :: rest) = tokensFrom (.inText (unit :: units)) rest := by
  have step : (Mode.afterBackslash units).take c = some ([], .inText (unit :: units)) := by
    rw [Mode.take, if_neg other, stands, Option.map_some]
  rw [tokensFrom_cons_of_silent (.afterBackslash units) rfl, tokensFrom_cons_of_silent _ step]

/-- A written unit is read as the unit. -/
theorem tokensFrom_writtenUnit (unit : UInt16) (rest : List Char) :
    tokensFrom (.inText units) (writtenUnit unit ++ rest) =
      tokensFrom (.inText (unit :: units)) rest := by
  have named {c : Char} (same : Char.ofNat unit.toNat = c) (some : c.toNat ≠ 0) :
      unit = .ofNat c.toNat := by
    by_cases valid : unit.toNat.isValidChar
    · rw [← same, toNat_ofNat valid, UInt16.ofNat_toNat]
    · rw [Char.ofNat, dif_neg valid] at same
      exact absurd (congrArg Char.toNat same).symm some
  unfold writtenUnit
  dsimp only
  split
  · next marks =>
    rcases marks with same | same <;>
    · rw [same, named same (by decide)]
      exact tokensFrom_escaped units (by decide) rfl rest
  split
  · next same => exact named same (by decide) ▸ tokensFrom_escaped units (by decide) rfl rest
  split
  · next same => exact named same (by decide) ▸ tokensFrom_escaped units (by decide) rfl rest
  split
  · next same => exact named same (by decide) ▸ tokensFrom_escaped units (by decide) rfl rest
  split
  · next same => exact same ▸ tokensFrom_escaped units (by decide) rfl rest
  split
  · next same => exact same ▸ tokensFrom_escaped units (by decide) rfl rest
  split
  · next marks _ _ _ _ _ plain =>
    have valid : unit.toNat.isValidChar := .inl (by omega)
    have code := toNat_ofNat valid
    have step : (Mode.inText units).take (Char.ofNat unit.toNat) =
        some ([], .inText (unit :: units)) := by
      rw [Mode.take, if_neg fun same => marks (.inl same), if_neg fun same => marks (.inr same),
        code, if_neg (by omega), unitsOf, code, if_pos (by omega), UInt16.ofNat_toNat]
      rfl
    exact tokensFrom_cons_of_silent _ step rest
  · exact tokensFrom_numbered units unit rest

end Units

theorem tokensFrom_writtenUnits (units text : Wide) (rest : List Char) :
    tokensFrom (.inText units) (text.flatMap writtenUnit ++ rest) =
      tokensFrom (.inText (text.reverse ++ units)) rest := by
  induction text generalizing units with
  | nil => rfl
  | cons unit text ih =>
      rw [List.flatMap_cons, List.append_assoc, tokensFrom_writtenUnit, ih, List.reverse_cons,
        List.append_assoc, List.singleton_append]

/-- A written text is read as the text. -/
theorem tokensFrom_writtenText (text : Wide) (rest : List Char) :
    tokensFrom .between (writtenText text ++ rest) =
      (tokensFrom .between rest).map (.text text :: ·) := by
  have last (units : Wide) : (Mode.inText units).take '"' =
      some ([.text units.reverse], .between) := rfl
  rw [writtenText, List.cons_append, List.cons_append, tokensFrom_cons_of_silent (.inText []) rfl,
    List.append_assoc, tokensFrom_writtenUnits, List.append_nil, List.singleton_append,
    tokensFrom_cons (last _), List.reverse_reverse]
  rfl

end Json

end SymbolJump
