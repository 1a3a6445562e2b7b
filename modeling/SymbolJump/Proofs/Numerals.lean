/-
# Numbers read back

A number is written as a bare word, and the word reads as the number again. Whole numbers are their
digits. The text of a double is some way to spell its shortest decimal: zeros before and after the
digits and the place of the point are made up for by the exponent, and all spellings of one decimal
read as the same double.
-/
import Mathlib.Data.Nat.Factorization.Basic
import SymbolJump.Decimal.Text
import SymbolJump.Json.Token
import SymbolJump.Json.Writer
import SymbolJump.Proofs.Doubles

namespace SymbolJump

open Text

/-! ## Digits -/

namespace Text

/-- A text of ASCII digits, of which there is at least one. -/
structure IsDigits (text : List Char) : Prop where
  ne_nil : text ≠ []
  digits : ∀ c ∈ text, isAsciiDigit c = true

theorem isAsciiDigit_iff {c : Char} : isAsciiDigit c = true ↔ 48 ≤ c.toNat ∧ c.toNat ≤ 57 := by
  simp [isAsciiDigit, Char.le_def, UInt32.le_iff_toNat_le]

theorem digitValue?_of_isAsciiDigit {c : Char} (digit : isAsciiDigit c = true) :
    digitValue? c = some (c.toNat - 48) := by
  obtain ⟨low, high⟩ := isAsciiDigit_iff.mp digit
  obtain ⟨others, zero⟩ : ∃ others, zeroDigits = 0x30 :: others := ⟨_, rfl⟩
  have below : c.toNat < 48 + 10 := by omega
  simp [digitValue?, zero, low, below]

theorem mapM_digitValue? {text : List Char} (digits : ∀ c ∈ text, isAsciiDigit c = true) :
    text.mapM digitValue? = some (text.map fun c => c.toNat - 48) := by
  induction text with
  | nil => rfl
  | cons c rest ih =>
      obtain ⟨here, later⟩ := List.forall_mem_cons.mp digits
      simp [digitValue?_of_isAsciiDigit here, ih later]

/-- Digits are read as the number that they write. -/
theorem digits?_of_isDigits {text : List Char} (isDigits : IsDigits text) :
    Json.digits? text = some (Nat.ofDigitChars 10 text 0) := by
  have all : text.all isAsciiDigit = true := List.all_eq_true.mpr isDigits.digits
  have value : ofDigits 10 (text.map fun c => c.toNat - 48) = Nat.ofDigitChars 10 text 0 := by
    simp [ofDigits, Nat.ofDigitChars_eq_foldl, List.foldl_map, Nat.mul_comm]
  simp [Json.digits?, isDigits.ne_nil, all, decimal?, mapM_digitValue? isDigits.digits, value]

theorem isDigits_toDigits (n : Nat) : IsDigits (Nat.toDigits 10 n) := by
  refine ⟨Nat.toDigits_ne_nil, fun c member => ?_⟩
  have digit := Nat.isDigit_of_mem_toDigits (by decide) (by decide) member
  simpa [Char.isDigit, isAsciiDigit_iff, UInt32.le_iff_toNat_le] using digit

theorem IsDigits.zeros_append {text : List Char} (isDigits : IsDigits text) (zeros : Nat) :
    IsDigits (List.replicate zeros '0' ++ text) := by
  refine ⟨by simp [isDigits.ne_nil], fun c member => ?_⟩
  rcases List.mem_append.mp member with zero | digit
  · rw [List.eq_of_mem_replicate zero]
    rfl
  · exact isDigits.digits c digit

theorem IsDigits.append_zeros {text : List Char} (isDigits : IsDigits text) (zeros : Nat) :
    IsDigits (text ++ List.replicate zeros '0') := by
  refine ⟨by simp [isDigits.ne_nil], fun c member => ?_⟩
  rcases List.mem_append.mp member with digit | zero
  · exact isDigits.digits c digit
  · rw [List.eq_of_mem_replicate zero]
    rfl

theorem IsDigits.take {text : List Char} (isDigits : IsDigits text) {count : Nat}
    (some : 0 < count) : IsDigits (text.take count) := by
  refine ⟨?_, fun c member => isDigits.digits c (List.mem_of_mem_take member)⟩
  simp [isDigits.ne_nil, Nat.pos_iff_ne_zero.mp some]

theorem IsDigits.drop {text : List Char} (isDigits : IsDigits text) {count : Nat}
    (short : count < text.length) : IsDigits (text.drop count) := by
  refine ⟨?_, fun c member => isDigits.digits c (List.mem_of_mem_drop member)⟩
  simpa using short

/-- The digits of a number do not start with a zero, unless the number is zero. -/
theorem head?_toDigits_ne {n : Nat} (positive : 0 < n) :
    (Nat.toDigits 10 n).head? ≠ some '0' := by
  induction n using Nat.strongRecOn with
  | ind n ih =>
      rw [Nat.toDigits_eq_if (by decide)]
      split
      · next single =>
        have each : ∀ digit : Fin 10, 0 < digit.val → Nat.digitChar digit ≠ '0' := by decide
        simpa using each ⟨n, single⟩ positive
      · next several =>
        have earlier := ih (n / 10) (by omega) (by omega)
        cases digits : Nat.toDigits 10 (n / 10) with
        | nil => exact absurd digits Nat.toDigits_ne_nil
        | cons first others => simpa [digits] using earlier

theorem getLast?_toDigits_ne {n : Nat} (whole : n % 10 ≠ 0) :
    (Nat.toDigits 10 n).getLast? ≠ some '0' := by
  have last : (Nat.toDigits 10 n).getLast? = some (n % 10).digitChar := by
    rw [Nat.toDigits_eq_if (by decide)]
    split
    · next single => simp [Nat.mod_eq_of_lt single]
    · simp
  have each : ∀ digit : Fin 10, digit.val ≠ 0 → Nat.digitChar digit ≠ '0' := by decide
  rw [last]
  simpa using each ⟨n % 10, Nat.mod_lt n (by decide)⟩ whole

end Text

/-! ## Numbers -/

namespace Json

/-- The characters that write a number without its sign. -/
def Numeral.written (numeral : Numeral) : List Char :=
  numeral.whole ++ (numeral.fraction.elim [] ('.' :: ·)) ++ (numeral.exponent.elim [] ('e' :: ·))

/-- Digits where digits must be, no zero in front that is not needed, and a signed exponent. -/
structure Numeral.IsWellFormed (numeral : Numeral) : Prop where
  whole : IsDigits numeral.whole
  leading : numeral.whole.head? ≠ some '0' ∨ numeral.whole.length = 1
  fraction : ∀ digits, numeral.fraction = some digits → IsDigits digits
  exponent : ∀ text, numeral.exponent = some text →
    ∃ sign digits, text = sign :: digits ∧ (sign = '+' ∨ sign = '-') ∧ IsDigits digits

variable {numeral : Numeral}

/-- The parts of a number are told apart in what writes it. -/
theorem ofChars_written (formed : numeral.IsWellFormed) :
    Numeral.ofChars numeral.written = numeral := by
  obtain ⟨whole, fraction, exponent⟩ := numeral
  have plain {digits : List Char} (isDigits : IsDigits digits) :
      ∀ c ∈ digits, c ≠ '.' ∧ c ≠ 'e' ∧ c ≠ 'E' := by
    intro c member
    have digit := isDigits.digits c member
    refine ⟨?_, ?_, ?_⟩ <;> rintro rfl <;> exact absurd digit (by decide)
  have wholes := plain formed.whole
  have noPoint : ∀ c ∈ whole, (decide (c ≠ '.')) = true := fun c member =>
    decide_eq_true (wholes c member).1
  have mantissa : ∀ c ∈ whole ++ fraction.elim [] ('.' :: ·),
      (decide (c ≠ 'e' ∧ c ≠ 'E')) = true := by
    intro c member
    rcases List.mem_append.mp member with here | there
    · exact decide_eq_true (wholes c here).2
    · cases fraction with
      | none => exact nomatch there
      | some digits =>
          rcases List.mem_cons.mp there with rfl | digit
          · decide
          · exact decide_eq_true (plain (formed.fraction digits rfl) c digit).2
  have head : List.takeWhile (fun c => decide (c ≠ 'e' ∧ c ≠ 'E'))
      (exponent.elim [] ('e' :: ·)) = [] := by
    cases exponent <;> rfl
  have tail : List.dropWhile (fun c => decide (c ≠ 'e' ∧ c ≠ 'E'))
      (exponent.elim [] ('e' :: ·)) = exponent.elim [] ('e' :: ·) := by
    cases exponent <;> rfl
  have point : List.takeWhile (fun c => decide (c ≠ '.')) (fraction.elim [] ('.' :: ·)) = [] := by
    cases fraction <;> rfl
  have places : List.dropWhile (fun c => decide (c ≠ '.')) (fraction.elim [] ('.' :: ·)) =
      fraction.elim [] ('.' :: ·) := by
    cases fraction <;> rfl
  unfold Numeral.ofChars Numeral.written
  simp only [List.takeWhile_append_of_pos mantissa, List.dropWhile_append_of_pos mantissa, head,
    tail, List.append_nil, List.takeWhile_append_of_pos noPoint,
    List.dropWhile_append_of_pos noPoint, point, places]
  cases fraction <;> cases exponent <;> rfl

/-- A whole number is the value of its digits, if there are not too many. -/
theorem value?_of_whole (negative : Bool) (formed : numeral.IsWellFormed)
    (short : numeral.whole.length ≤ numeralLimit) (noFraction : numeral.fraction = none)
    (noExponent : numeral.exponent = none) :
    numeral.value? negative =
      some (.int (if negative then -(Nat.ofDigitChars 10 numeral.whole 0 : Int)
        else Nat.ofDigitChars 10 numeral.whole 0)) := by
  have leading : ¬ (numeral.whole.head? = some '0' ∧ numeral.whole.length ≠ 1) := by
    rintro ⟨zero, several⟩
    exact formed.leading.elim (absurd zero) several
  simp [Numeral.value?, digits?_of_isDigits formed.whole, leading, noFraction, noExponent,
    Nat.not_lt.mpr short]

/-- The value of an exponent. -/
def Numeral.power (numeral : Numeral) : Int :=
  (numeral.exponent.bind exponent?).getD 0

theorem exponent?_of_isWellFormed (formed : numeral.IsWellFormed) {text : List Char}
    (here : numeral.exponent = some text) : exponent? text = some numeral.power := by
  obtain ⟨sign, digits, rfl, sign, isDigits⟩ := formed.exponent text here
  rcases sign with rfl | rfl <;>
    simp [Numeral.power, here, exponent?, digits?_of_isDigits isDigits]

/-- A number with a fraction or an exponent is a decimal, whose digits are those on both sides of
the point. -/
theorem value?_of_decimal (negative : Bool) (formed : numeral.IsWellFormed)
    (decimal : numeral.fraction.isSome ∨ numeral.exponent.isSome) :
    numeral.value? negative =
      some (.float (.ofDecimal negative
        (Nat.ofDigitChars 10 (numeral.whole ++ numeral.fraction.getD []) 0)
        (numeral.power - (numeral.fraction.getD []).length))) := by
  have leading : ¬ (numeral.whole.head? = some '0' ∧ numeral.whole.length ≠ 1) := by
    rintro ⟨zero, several⟩
    exact formed.leading.elim (absurd zero) several
  have joined (digits : List Char) :
      Nat.ofDigitChars 10 (numeral.whole ++ digits) 0 =
        Nat.ofDigitChars 10 numeral.whole 0 * Nat.pow 10 digits.length +
          Nat.ofDigitChars 10 digits 0 := by
    rw [Nat.ofDigitChars_append, Nat.ofDigitChars_eq_ofDigitChars_zero, Nat.mul_comm]
    rfl
  cases fraction : numeral.fraction with
  | none =>
      cases exponent : numeral.exponent with
      | none => simp [fraction, exponent] at decimal
      | some text =>
          simp [Numeral.value?, digits?_of_isDigits formed.whole, leading, fraction, exponent,
            exponent?_of_isWellFormed formed exponent]
  | some digits =>
      have part := digits?_of_isDigits (formed.fraction digits fraction)
      cases exponent : numeral.exponent with
      | none =>
          simp [Numeral.value?, digits?_of_isDigits formed.whole, leading, fraction, exponent,
            part, joined, Numeral.power]
      | some text =>
          simp [Numeral.value?, digits?_of_isDigits formed.whole, leading, fraction, exponent,
            part, joined, exponent?_of_isWellFormed formed exponent]

/-- A word with a digit names no value. -/
theorem lookup_namedWords_of_digit {chars : List Char} {digit : Char} (member : digit ∈ chars)
    (isDigit : isAsciiDigit digit = true) :
    namedWords.lookup (String.ofList chars) = none := by
  have letters : ∀ entry ∈ namedWords, (entry.1.toList.all fun c => !isAsciiDigit c) = true :=
    List.all_eq_true.mp (by decide)
  rw [List.lookup_eq_none_iff]
  intro entry named
  rw [bne_iff_ne]
  intro same
  have letter := List.all_eq_true.mp (letters entry named) digit
    (by rwa [← same, String.toList_ofList])
  rw [isDigit] at letter
  nomatch letter

/-- A word that writes a number reads as it. -/
theorem word?_of_isWellFormed (negative : Bool) (formed : numeral.IsWellFormed) :
    word? (if negative then '-' :: numeral.written else numeral.written) =
      numeral.value? negative := by
  obtain ⟨first, rest, written, digit⟩ : ∃ first rest,
      numeral.written = first :: rest ∧ isAsciiDigit first = true := by
    cases whole : numeral.whole with
    | nil => exact absurd whole formed.whole.ne_nil
    | cons first others =>
        refine ⟨first, others ++ numeral.fraction.elim [] ('.' :: ·) ++
          numeral.exponent.elim [] ('e' :: ·), ?_,
          formed.whole.digits first (whole ▸ List.mem_cons_self)⟩
        rw [Numeral.written, whole]
        rfl
  have reads := ofChars_written formed
  have member : first ∈ numeral.written := written ▸ List.mem_cons_self
  cases negative with
  | true =>
      rw [if_pos rfl, word?, lookup_namedWords_of_digit (List.mem_cons_of_mem _ member) digit]
      show (Numeral.ofChars numeral.written).value? true = _
      rw [reads]
  | false =>
      rw [if_neg Bool.false_ne_true, word?.eq_def, lookup_namedWords_of_digit member digit]
      dsimp only
      split
      · next rest here =>
        obtain ⟨rfl, rfl⟩ := List.cons.inj (written.symm.trans here)
        exact absurd digit (by decide)
      · rw [reads]

/-- A bare word that reads as a value. -/
structure IsWordOf (value : Json Wide) (word : List Char) : Prop where
  ne_nil : word ≠ []
  chars : ∀ c ∈ word, isWordChar c = true
  reads : word? word = some value

theorem isWordChar_of_isDigits {text : List Char} (isDigits : IsDigits text) :
    ∀ c ∈ text, isWordChar c = true := by
  intro c member
  simp [isWordChar, isDigits.digits c member]

theorem isWordChar_written (formed : numeral.IsWellFormed) :
    ∀ c ∈ numeral.written, isWordChar c = true := by
  intro c member
  rcases List.mem_append.mp member with mantissa | exponent
  · rcases List.mem_append.mp mantissa with whole | fraction
    · exact isWordChar_of_isDigits formed.whole c whole
    · cases here : numeral.fraction with
      | none => simp [here] at fraction
      | some digits =>
          rw [here] at fraction
          rcases List.mem_cons.mp fraction with rfl | digit
          · decide
          · exact isWordChar_of_isDigits (formed.fraction digits here) c digit
  · cases here : numeral.exponent with
    | none => simp [here] at exponent
    | some text =>
        obtain ⟨sign, digits, rfl, isSign, isDigits⟩ := formed.exponent text here
        rw [here] at exponent
        rcases List.mem_cons.mp exponent with rfl | later
        · decide
        rcases List.mem_cons.mp later with rfl | digit
        · rcases isSign with rfl | rfl <;> decide
        · exact isWordChar_of_isDigits isDigits c digit

/-- A number is a bare word. -/
theorem isWordOf_written {value : Json Wide} (negative : Bool) (formed : numeral.IsWellFormed)
    (reads : numeral.value? negative = some value) :
    IsWordOf value (if negative then '-' :: numeral.written else numeral.written) := by
  have plain := isWordChar_written formed
  have some : numeral.written ≠ [] := by simp [Numeral.written, formed.whole.ne_nil]
  refine ⟨?_, ?_, (word?_of_isWellFormed negative formed).trans reads⟩
  · cases negative
    · exact some
    · exact List.cons_ne_nil _ _
  · cases negative
    · exact plain
    · exact List.forall_mem_cons.mpr ⟨by decide, plain⟩

theorem isWordOf_null : IsWordOf .null ['n', 'u', 'l', 'l'] :=
  ⟨by simp, List.all_eq_true.mp (by decide), rfl⟩

theorem isWordOf_true : IsWordOf (.bool true) ['t', 'r', 'u', 'e'] :=
  ⟨by simp, List.all_eq_true.mp (by decide), rfl⟩

theorem isWordOf_false : IsWordOf (.bool false) ['f', 'a', 'l', 's', 'e'] :=
  ⟨by simp, List.all_eq_true.mp (by decide), rfl⟩

/-! ## Whole numbers -/

theorem toList_toString_int (value : Int) :
    (toString value).toList =
      if value < 0 then '-' :: Nat.toDigits 10 value.natAbs else Nat.toDigits 10 value.natAbs := by
  rw [Int.toString_eq_repr, Int.repr_eq_if]
  by_cases negative : value < 0
  · have size : value.natAbs = (-value).toNat := by omega
    rw [if_pos negative, if_neg (by omega), size]
    simp
  · have size : value.natAbs = value.toNat := by omega
    rw [if_neg negative, if_pos (by omega), size]
    simp

theorem isWellFormed_toDigits (n : Nat) :
    Numeral.IsWellFormed ⟨Nat.toDigits 10 n, none, none⟩ := by
  refine ⟨isDigits_toDigits n, ?_, nofun, nofun⟩
  rcases Nat.eq_zero_or_pos n with rfl | positive
  · exact .inr rfl
  · exact .inl (head?_toDigits_ne positive)

/-- A whole number reads back from its text. -/
theorem isWordOf_int {value : Int} (short : value.natAbs < Nat.pow 10 numeralLimit) :
    IsWordOf (.int value) (toString value).toList := by
  have formed := isWellFormed_toDigits value.natAbs
  have length {limit : Nat} (positive : 0 < limit) (short : value.natAbs < Nat.pow 10 limit) :
      (Nat.toDigits 10 value.natAbs).length ≤ limit :=
    (Nat.length_toDigits_le_iff (by decide) positive).mpr short
  have text : (toString value).toList = if decide (value < 0) = true
      then '-' :: Numeral.written ⟨Nat.toDigits 10 value.natAbs, none, none⟩
      else Numeral.written ⟨Nat.toDigits 10 value.natAbs, none, none⟩ := by
    rw [toList_toString_int]
    simp [Numeral.written]
  rw [text]
  apply isWordOf_written _ formed
  rw [value?_of_whole _ formed (length (by decide) short) rfl rfl, Nat.ofDigitChars_ten_toDigits]
  congr 2
  split <;> simp only [decide_eq_true_eq] at * <;> omega

/-! ## Doubles -/

open Decimal

/-- A number spells a decimal, with zeros at the end of its digits that the exponent makes up
for. -/
structure Numeral.Spells (numeral : Numeral) (digits : Nat) (exponent : Int) : Prop where
  formed : numeral.IsWellFormed
  decimal : numeral.fraction.isSome ∨ numeral.exponent.isSome
  value : ∃ zeros : Nat,
    Nat.ofDigitChars 10 (numeral.whole ++ numeral.fraction.getD []) 0 = digits * 10 ^ zeros ∧
      numeral.power - (numeral.fraction.getD []).length = exponent - zeros

section Spellings

variable {digits : Nat} {chars : List Char} (isDigits : IsDigits chars)
  (value : Nat.ofDigitChars 10 chars 0 = digits)

include isDigits value

/-- A point stands in front of the digits, after a zero and with more zeros behind it. -/
theorem spells_behind_point (zeros : Nat) :
    Numeral.Spells ⟨['0'], some (List.replicate zeros '0' ++ chars), none⟩ digits
      (-zeros - chars.length) := by
  refine ⟨⟨isDigits_toDigits 0, .inr rfl, ?_, nofun⟩, .inl rfl, 0, ?_, ?_⟩
  · rintro _ ⟨⟩
    exact isDigits.zeros_append zeros
  · simp [Nat.ofDigitChars_append, Nat.ofDigitChars_cons, value]
  · simp [Numeral.power]
    omega

/-- A point stands after the digits and some zeros, with a zero behind it. -/
theorem spells_before_point (leading : chars.head? ≠ some '0') (zeros : Nat) :
    Numeral.Spells ⟨chars ++ List.replicate zeros '0', some ['0'], none⟩ digits zeros := by
  refine ⟨⟨isDigits.append_zeros zeros, .inl ?_, ?_, nofun⟩, .inl rfl, zeros + 1, ?_, ?_⟩
  · rwa [List.head?_append_of_ne_nil _ isDigits.ne_nil]
  · rintro _ ⟨⟩
    exact isDigits_toDigits 0
  · simp [Nat.ofDigitChars_append, Nat.ofDigitChars_cons, value, Nat.pow_succ]
    ring
  · simp [Numeral.power]

/-- A point stands among the digits. -/
theorem spells_around_point (leading : chars.head? ≠ some '0') {count : Nat} (some : 0 < count)
    (short : count < chars.length) :
    Numeral.Spells ⟨chars.take count, chars.drop count, none⟩ digits (count - chars.length) := by
  refine ⟨⟨isDigits.take some, .inl ?_, ?_, nofun⟩, .inl rfl, 0, ?_, ?_⟩
  · rwa [List.head?_take, if_neg (Nat.pos_iff_ne_zero.mp some)]
  · rintro _ ⟨⟩
    exact isDigits.drop short
  · simp [value]
  · simp [Numeral.power]
    omega

/-- A point stands after the first digit, when there is another, and an exponent moves it. -/
theorem spells_with_exponent {sign : Char} {size : List Char} {power : Int}
    (isSign : sign = '+' ∨ sign = '-') (isSize : IsDigits size)
    (moves : exponent? (sign :: size) = some power) :
    Numeral.Spells ⟨chars.take 1, if chars.length ≤ 1 then none else some (chars.drop 1),
      some (sign :: size)⟩ digits (power + 1 - chars.length) := by
  have length : (chars.take 1).length = 1 := by
    rw [List.length_take, Nat.min_eq_left (List.length_pos_iff.mpr isDigits.ne_nil)]
  have rest : (if chars.length ≤ 1 then none else some (chars.drop 1)).getD [] = chars.drop 1 := by
    split
    · next single => exact (List.drop_eq_nil_of_le single).symm
    · rfl
  refine ⟨⟨isDigits.take Nat.one_pos, .inr length, ?_, ?_⟩, .inr rfl, 0, ?_, ?_⟩
  · intro fraction here
    split at here
    · cases here
    · next several =>
      obtain rfl := Option.some.inj here
      exact isDigits.drop (Nat.not_le.mp several)
  · rintro _ ⟨⟩
    exact ⟨sign, size, rfl, isSign, isSize⟩
  · rw [rest, List.take_append_drop, value, Nat.pow_zero, Nat.mul_one]
  · have some := List.length_pos_iff.mpr isDigits.ne_nil
    rw [rest, List.length_drop]
    simp [Numeral.power, moves]
    omega

end Spellings

/-- A decimal is spelled with a point among its digits, in front of them or after them. -/
theorem exists_spells_positional {digits : Nat} (positive : 0 < digits) (point : Int) :
    ∃ numeral : Numeral, positional (Nat.toDigits 10 digits) point = numeral.written ∧
      numeral.Spells digits (point - (Nat.toDigits 10 digits).length) := by
  have isDigits := isDigits_toDigits digits
  have leading := head?_toDigits_ne positive
  have value : Nat.ofDigitChars 10 (Nat.toDigits 10 digits) 0 = digits :=
    Nat.ofDigitChars_ten_toDigits
  generalize Nat.toDigits 10 digits = chars at *
  by_cases before : point ≤ 0
  · obtain ⟨zeros, rfl⟩ : ∃ zeros : Nat, point = -zeros := ⟨point.natAbs, by omega⟩
    refine ⟨_, ?_, spells_behind_point isDigits value zeros⟩
    simp [positional, Numeral.written]
  obtain ⟨whole, rfl⟩ : ∃ whole : Nat, point = whole := ⟨point.toNat, by omega⟩
  have some : whole ≠ 0 := by omega
  by_cases after : chars.length ≤ whole
  · have zeros : (whole : Int) - chars.length = (whole - chars.length : Nat) := by omega
    rw [zeros]
    refine ⟨_, ?_, spells_before_point isDigits value leading (whole - chars.length)⟩
    simp [positional, some, after, Numeral.written]
  · refine ⟨_, ?_, spells_around_point isDigits value leading (Nat.pos_of_ne_zero some)
      (Nat.not_le.mp after)⟩
    simp [positional, some, after, Numeral.written]

/-- The exponent of a text is a sign and the digits of its size, of which there are at least two. -/
theorem exponent?_padded (power : Int) :
    let size := Nat.toDigits 10 power.natAbs
    exponent? ((if power < 0 then '-' else '+') :: (List.replicate (2 - size.length) '0' ++ size)) =
      some power := by
  intro size
  have padded : digits? (List.replicate (2 - size.length) '0' ++ size) = some power.natAbs := by
    rw [digits?_of_isDigits ((isDigits_toDigits power.natAbs).zeros_append _),
      Nat.ofDigitChars_append, Nat.ofDigitChars_replicate_zero, Nat.mul_zero,
      Nat.ofDigitChars_ten_toDigits]
  split
  · next negative =>
    have value : -(power.natAbs : Int) = power := by omega
    rw [exponent?, padded]
    exact congrArg some value
  · next positive =>
    have value : (power.natAbs : Int) = power := by omega
    rw [exponent?, padded]
    exact congrArg some value

/-- A decimal is spelled with the point after its first digit and an exponent. -/
theorem exists_spells_scientific (digits : Nat) (point : Int) :
    ∃ numeral : Numeral, scientific (Nat.toDigits 10 digits) (point - 1) = numeral.written ∧
      numeral.Spells digits (point - (Nat.toDigits 10 digits).length) := by
  have isSign : (if point - 1 < 0 then '-' else '+') = '+' ∨
      (if point - 1 < 0 then '-' else '+') = '-' := by
    split
    · exact .inr rfl
    · exact .inl rfl
  have spells := spells_with_exponent (isDigits_toDigits digits) Nat.ofDigitChars_ten_toDigits
    isSign ((isDigits_toDigits (point - 1).natAbs).zeros_append _) (exponent?_padded (point - 1))
  rw [Int.sub_add_cancel] at spells
  refine ⟨_, ?_, spells⟩
  rw [scientific, Numeral.written]
  split <;> simp

/-- The significant digits of a number are the digits of a number without zeros at its end. -/
theorem exists_significantDigits {digits : Nat} (positive : 0 < digits) :
    ∃ significant zeros, 0 < significant ∧ digits = significant * 10 ^ zeros ∧
      significantDigits digits = Nat.toDigits 10 significant := by
  obtain ⟨zeros, significant, whole, split⟩ :=
    Nat.exists_eq_pow_mul_and_not_dvd positive.ne' 10 (by decide)
  rw [Nat.mul_comm] at split
  have rest : 0 < significant := Nat.pos_of_ne_zero fun zero => whole (zero ▸ Nat.dvd_zero 10)
  have last := getLast?_toDigits_ne fun multiple => whole (Nat.dvd_of_mod_eq_zero multiple)
  refine ⟨significant, zeros, rest, split, ?_⟩
  rw [significantDigits, split, Double.toDigits_mul_pow rest, List.reverse_append,
    List.reverse_replicate, List.dropWhile_append_of_pos (by simp)]
  cases reversed : (Nat.toDigits 10 significant).reverse with
  | nil => exact absurd (List.reverse_eq_nil_iff.mp reversed) Nat.toDigits_ne_nil
  | cons c others =>
      have digit : c ≠ '0' := by
        rintro rfl
        exact last (by rw [← List.head?_reverse, reversed]; rfl)
      rw [List.dropWhile_cons_of_neg (by simpa using digit), ← reversed, List.reverse_reverse]

/-- The text of a magnitude spells a decimal that reads back as it. -/
theorem exists_spells_magnitudeText (x : Double) :
    ∃ (numeral : Numeral) (digits : Nat) (exponent : Int), x.magnitudeText = numeral.written ∧
      numeral.Spells digits exponent ∧ exponent ≤ 400 ∧
      Double.placeOfDecimal digits exponent = x.place := by
  by_cases zero : x.place = 0
  · refine ⟨⟨['0'], some ['0'], none⟩, 0, 0, ?_, ⟨⟨isDigits_toDigits 0, .inr rfl, ?_, nofun⟩,
      .inl rfl, 1, rfl, rfl⟩, by decide, ?_⟩
    · simp [Double.magnitudeText, Double.isZero, zero, Numeral.written]
    · rintro _ ⟨⟩
      exact isDigits_toDigits 0
    · simp [Double.placeOfDecimal, zero]
  obtain ⟨reads, positive, _, narrow⟩ := Double.shortest_reads_back zero
  obtain ⟨digits, zeros, some, split, significant⟩ := exists_significantDigits positive
  have width : (Nat.toDigits 10 x.shortest.digits).length =
      (Nat.toDigits 10 digits).length + zeros := by
    rw [split, Double.toDigits_mul_pow some, List.length_append, List.length_replicate]
  let point : Int := x.shortest.exponent + (Nat.toDigits 10 x.shortest.digits).length
  have exponent : point - (Nat.toDigits 10 digits).length - zeros = x.shortest.exponent := by
    omega
  have place :
      Double.placeOfDecimal digits (point - (Nat.toDigits 10 digits).length) = x.place := by
    rw [← Double.placeOfDecimal_mul_pow digits zeros (by omega), exponent, ← split, reads]
  have text : x.magnitudeText =
      if -4 < point ∧ point ≤ 16 then positional (Nat.toDigits 10 digits) point
      else scientific (Nat.toDigits 10 digits) (point - 1) := by
    rw [← significant]
    simp [Double.magnitudeText, Double.isZero, zero, point]
  rw [text]
  split
  · obtain ⟨numeral, written, spells⟩ := exists_spells_positional some point
    exact ⟨numeral, digits, _, written, spells, by omega, place⟩
  · obtain ⟨numeral, written, spells⟩ := exists_spells_scientific digits point
    exact ⟨numeral, digits, _, written, spells, by omega, place⟩

/-- A double reads back from its text. -/
theorem isWordOf_finite (x : Double) : IsWordOf (.float (.finite x)) x.text.toList := by
  obtain ⟨numeral, digits, exponent, text, spells, high, reads⟩ := exists_spells_magnitudeText x
  obtain ⟨zeros, value, shift⟩ := spells.value
  have word : x.text.toList =
      if x.negative then '-' :: numeral.written else numeral.written := by
    rw [Double.text, String.toList_ofList, text]
  rw [word]
  apply isWordOf_written _ spells.formed
  rw [value?_of_decimal _ spells.formed spells.decimal, value, shift, Floating.ofDecimal,
    Double.placeOfDecimal_mul_pow digits zeros high, reads, Floating.atPlace, dif_pos x.place_lt]

/-- A floating-point number reads back from its text, also one that has no value. -/
theorem isWordOf_float (x : Floating) : IsWordOf (.float x) (writtenFloating x) := by
  have named {word : String} (letters : word.toList.all isWordChar = true)
      (isNamed : namedWords.lookup word = some (.float x)) : IsWordOf (.float x) word.toList := by
    have reads : word? word.toList = some (.float x) := by
      rw [word?.eq_def, String.ofList_toList, isNamed]
    refine ⟨fun empty => ?_, List.all_eq_true.mp letters, reads⟩
    rw [String.toList_eq_nil_iff.mp empty] at isNamed
    exact nomatch isNamed
  rcases x with x | ⟨_ | _⟩ | _
  · exact isWordOf_finite x
  · exact named (by decide) rfl
  · exact named (by decide) rfl
  · exact named (by decide) rfl

end Json

end SymbolJump
