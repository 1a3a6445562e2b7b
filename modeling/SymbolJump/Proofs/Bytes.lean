/-
# Texts as bytes and back

The bytes of a text read back as the text, in a strict reading and in a lenient one, since they cut
into its characters and nothing else. A character of several bytes starts with one that says how
many follow and in which range the next one lies; the ranges leave out what would be shorter, what
is half of a pair, and what lies beyond the last character, and a character's own bytes keep within
them.
-/
import Mathlib.Data.List.Forall2
import SymbolJump.Text.Utf8

namespace SymbolJump.Text.Utf8

/-- A byte in the range that is owed. -/
def IsPaid (range : UInt8 × UInt8) (byte : UInt8) : Prop :=
  range.1 ≤ byte ∧ byte ≤ range.2

/-- The bytes that a character's start asks for complete it. -/
theorem piecesFrom_of_paid {started tail rest : List UInt8} {owed : Owed} (some : owed ≠ [])
    (paid : List.Forall₂ IsPaid owed tail) :
    piecesFrom started owed (tail ++ rest) =
      .char (assemble (started.reverse ++ tail)) :: piecesFrom [] [] rest := by
  induction paid generalizing started with
  | nil => exact absurd rfl some
  | @cons range byte owed tail inside paid ih =>
      have inside : range.1 ≤ byte ∧ byte ≤ range.2 := inside
      rw [List.cons_append, piecesFrom, if_pos inside]
      cases paid with
      | nil => simp
      | cons next later =>
          have more : piecesFrom (byte :: started) _ _ = _ := ih (List.cons_ne_nil _ _)
          simp only [List.isEmpty_cons, Bool.false_eq_true, if_false, more, List.reverse_cons,
            List.append_assoc, List.singleton_append]

/-- A start and the bytes that it asks for make one character. -/
theorem piecesFrom_of_owedAfter {lead : UInt8} {tail rest : List UInt8} {owed : Owed}
    (asks : owedAfter lead = some owed) (paid : List.Forall₂ IsPaid owed tail) :
    piecesFrom [] [] (lead :: tail ++ rest) =
      .char (assemble (lead :: tail)) :: piecesFrom [] [] rest := by
  rw [List.cons_append, piecesFrom, enter, asks]
  cases paid with
  | nil => rfl
  | cons next later =>
      exact piecesFrom_of_paid (List.cons_ne_nil _ _) (.cons next later)

/-- What a start asks for, by its number. -/
theorem owedAfter_ofNat {n : Nat} (small : n < 256) :
    owedAfter (UInt8.ofNat n) =
      if n < 0x80 then some []
      else if n < 0xc2 then none
      else if n < 0xe0 then some [(0x80, 0xbf)]
      else if n = 0xe0 then some [(0xa0, 0xbf), (0x80, 0xbf)]
      else if n = 0xed then some [(0x80, 0x9f), (0x80, 0xbf)]
      else if n < 0xf0 then some [(0x80, 0xbf), (0x80, 0xbf)]
      else if n = 0xf0 then some [(0x90, 0xbf), (0x80, 0xbf), (0x80, 0xbf)]
      else if n < 0xf4 then some [(0x80, 0xbf), (0x80, 0xbf), (0x80, 0xbf)]
      else if n = 0xf4 then some [(0x80, 0x8f), (0x80, 0xbf), (0x80, 0xbf)]
      else none := by
  simp only [owedAfter, UInt8.lt_iff_toNat_lt, ← UInt8.toNat_inj, UInt8.toNat_ofNat',
    Nat.mod_eq_of_lt small]
  rfl

theorem leadBits_ofNat {n : Nat} (small : n < 256) :
    leadBits (UInt8.ofNat n) =
      if n < 0x80 then n
      else if n < 0xe0 then n % 0x20
      else if n < 0xf0 then n % 0x10
      else n % 0x08 := by
  simp only [leadBits, UInt8.lt_iff_toNat_lt, UInt8.toNat_ofNat', Nat.mod_eq_of_lt small]
  rfl

theorem isPaid_ofNat {range : UInt8 × UInt8} {n : Nat} (small : n < 256)
    (lower : range.1.toNat ≤ n) (upper : n ≤ range.2.toNat) : IsPaid range (UInt8.ofNat n) := by
  rw [IsPaid, UInt8.le_iff_toNat_le, UInt8.le_iff_toNat_le, UInt8.toNat_ofNat',
    Nat.mod_eq_of_lt small]
  exact ⟨lower, upper⟩

/-- The byte that carries six bits after the first byte of a character. -/
def continuation (bits : Nat) : UInt8 :=
  UInt8.ofNat (bits % 0x40 + 0x80)

theorem ofNat_continuation (bits : Nat) : UInt8.ofNat (bits % 0x40 + 0x80) = continuation bits :=
  rfl

theorem toNat_continuation (bits : Nat) : (continuation bits).toNat % 0x40 = bits % 0x40 := by
  rw [continuation, UInt8.toNat_ofNat']
  omega

theorem isPaid_continuation (bits : Nat) : IsPaid (0x80, 0xbf) (continuation bits) :=
  isPaid_ofNat (by omega) (by simp) (by simp; omega)

section Lengths

variable {v : Nat}

theorem asks_two (lower : 0x80 ≤ v) (upper : v < 0x800) :
    ∃ owed, owedAfter (UInt8.ofNat (v / 64 % 0x20 + 0xc0)) = some owed ∧
      List.Forall₂ IsPaid owed [continuation v] := by
  rw [owedAfter_ofNat (by omega), if_neg (by omega), if_neg (by omega), if_pos (by omega)]
  exact ⟨_, rfl, .cons (isPaid_continuation v) .nil⟩

/-- Of the characters of three bytes, the first must not be shorter and some are no characters. -/
theorem asks_three (lower : 0x800 ≤ v) (upper : v < 0x10000)
    (whole : v < 0xd800 ∨ 0xdfff < v) :
    ∃ owed, owedAfter (UInt8.ofNat (v / 4096 % 0x10 + 0xe0)) = some owed ∧
      List.Forall₂ IsPaid owed [continuation (v / 64), continuation v] := by
  have last := List.Forall₂.cons (isPaid_continuation v) .nil
  rw [owedAfter_ofNat (by omega), if_neg (by omega), if_neg (by omega), if_neg (by omega)]
  split
  · exact ⟨_, rfl, .cons (isPaid_ofNat (by omega) (by simp; omega) (by simp; omega)) last⟩
  split
  · exact ⟨_, rfl, .cons (isPaid_ofNat (by omega) (by simp) (by simp; omega)) last⟩
  · rw [if_pos (by omega)]
    exact ⟨_, rfl, .cons (isPaid_continuation _) last⟩

theorem asks_four (lower : 0x10000 ≤ v) (upper : v < 0x110000) :
    ∃ owed, owedAfter (UInt8.ofNat (v / 262144 % 0x08 + 0xf0)) = some owed ∧
      List.Forall₂ IsPaid owed
        [continuation (v / 4096), continuation (v / 64), continuation v] := by
  have last := List.Forall₂.cons (isPaid_continuation (v / 64)) (.cons (isPaid_continuation v) .nil)
  rw [owedAfter_ofNat (by omega), if_neg (by omega), if_neg (by omega), if_neg (by omega),
    if_neg (by omega), if_neg (by omega), if_neg (by omega)]
  split
  · exact ⟨_, rfl, .cons (isPaid_ofNat (by omega) (by simp; omega) (by simp; omega)) last⟩
  split
  · exact ⟨_, rfl, .cons (isPaid_continuation _) last⟩
  · rw [if_pos (by omega)]
    exact ⟨_, rfl, .cons (isPaid_ofNat (by omega) (by simp) (by simp; omega)) last⟩

end Lengths

/-- The bytes of a character are cut as that character. -/
theorem piecesFrom_utf8EncodeChar (c : Char) (rest : List UInt8) :
    piecesFrom [] [] (String.utf8EncodeChar c ++ rest) = .char c :: piecesFrom [] [] rest := by
  have valid := c.valid
  have back : Char.ofNat c.val.toNat = c := Char.ofNat_toNat c
  simp only [UInt32.isValidChar, Nat.isValidChar] at valid
  unfold String.utf8EncodeChar
  generalize c.val.toNat = v at valid back
  dsimp only
  simp only [ofNat_continuation]
  split
  · have asks : owedAfter (UInt8.ofNat v) = some [] := by
      rw [owedAfter_ofNat (by omega), if_pos (by omega)]
    rw [piecesFrom_of_owedAfter asks .nil, assemble, leadBits_ofNat (by omega),
      if_pos (by omega), List.foldl_nil, back]
  -- In each case that is left, what remains is that the bits of the number add up to it.
  split
  · obtain ⟨owed, asks, paid⟩ := asks_two (v := v) (by omega) (by omega)
    rw [piecesFrom_of_owedAfter asks paid, assemble, leadBits_ofNat (by omega),
      if_neg (by omega), if_pos (by omega), ← back]
    simp only [List.foldl_cons, List.foldl_nil, toNat_continuation]
    congr 3
    omega
  split
  · obtain ⟨owed, asks, paid⟩ := asks_three (v := v) (by omega) (by omega) (by omega)
    rw [piecesFrom_of_owedAfter asks paid, assemble, leadBits_ofNat (by omega),
      if_neg (by omega), if_neg (by omega), if_pos (by omega), ← back]
    simp only [List.foldl_cons, List.foldl_nil, toNat_continuation]
    congr 3
    omega
  · obtain ⟨owed, asks, paid⟩ := asks_four (v := v) (by omega) (by omega)
    rw [piecesFrom_of_owedAfter asks paid, assemble, leadBits_ofNat (by omega),
      if_neg (by omega), if_neg (by omega), if_neg (by omega), ← back]
    simp only [List.foldl_cons, List.foldl_nil, toNat_continuation]
    congr 3
    omega

@[simp]
theorem encodeChars_cons (c : Char) (rest : List Char) :
    encodeChars (c :: rest) = String.utf8EncodeChar c ++ encodeChars rest :=
  List.flatMap_cons

/-- The bytes of a text cut into its characters. -/
theorem pieces_encodeChars (text : List Char) : pieces (encodeChars text) = text.map .char := by
  unfold pieces
  induction text with
  | nil => rfl
  | cons c rest ih => rw [encodeChars_cons, piecesFrom_utf8EncodeChar, ih, List.map_cons]

theorem charsFrom_map_char (position : Nat) (text : List Char) :
    charsFrom position (text.map .char) = .ok text := by
  induction text generalizing position with
  | nil => rfl
  | cons c rest ih =>
      rw [List.map_cons, charsFrom, ih]
      rfl

/-- A strict reading recovers a text from its bytes. -/
@[simp]
theorem decode_encode (text : String) : decode (encode text) = .ok text := by
  rw [decode, encode, pieces_encodeChars, charsFrom_map_char]
  exact congrArg Except.ok String.ofList_toList

/-- A lenient reading recovers a text from its bytes. -/
@[simp]
theorem decodeLenient_encodeChars (text : List Char) :
    decodeLenient (encodeChars text) = String.ofList text := by
  rw [decodeLenient, pieces_encodeChars, List.map_map]
  exact congrArg String.ofList (List.map_id text)

end SymbolJump.Text.Utf8
