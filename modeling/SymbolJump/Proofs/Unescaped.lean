/-
# Texts without escapes

Decoding leaves a text as it is exactly when there is no percent sign with two digits behind it. One
direction is plain. For the other the lengths are compared: an escape takes three characters to
write one byte, and bytes never make more characters than there are of them, whether they are well
formed or not. What is not escaped keeps its length, as a character's first byte continues no other
one and so cannot be drawn into an ill-formed part that was begun before it.
-/
import SymbolJump.Proofs.Bytes
import SymbolJump.Text.Percent

namespace SymbolJump.Text

namespace Utf8

/-- Where a pass stands: between characters, or inside of one that owes bytes that continue it. -/
inductive Stage : List UInt8 → Owed → Prop
  | between : Stage [] []
  | inside {started : List UInt8} {owed : Owed} (begun : started ≠ []) (owes : owed ≠ [])
      (continuing : ∀ range ∈ owed, 0x80 ≤ range.1 ∧ range.2 ≤ 0xbf) : Stage started owed

/-- The pieces that a character begun is sure to end in. -/
def begun (started : List UInt8) : Nat :=
  if started.isEmpty then 0 else 1

theorem continuing_of_owedAfter {lead : UInt8} {owed : Owed} (asks : owedAfter lead = some owed) :
    ∀ range ∈ owed, 0x80 ≤ range.1 ∧ range.2 ≤ 0xbf := by
  unfold owedAfter at asks
  split_ifs at asks <;> cases asks <;> simp

/-- A byte between characters makes a piece, or begins one. -/
theorem stage_enter (byte : UInt8) :
    Stage (enter byte).2.1 (enter byte).2.2 ∧
      (enter byte).1.length + begun (enter byte).2.1 = 1 := by
  unfold enter
  cases asks : owedAfter byte with
  | none => exact ⟨.between, rfl⟩
  | some owed =>
      cases owed with
      | nil => exact ⟨.between, rfl⟩
      | cons range owed =>
          exact ⟨.inside (by simp) (by simp) (continuing_of_owedAfter asks), rfl⟩

theorem begun_of_ne_nil {started : List UInt8} (some : started ≠ []) : begun started = 1 := by
  cases started with
  | nil => exact absurd rfl some
  | cons => rfl

/-- A byte that does not continue what was begun is read as it would be between characters. -/
theorem piecesFrom_of_unpaid {low high byte : UInt8} (unpaid : ¬ (low ≤ byte ∧ byte ≤ high))
    (started rest : List UInt8) (owed : Owed) :
    piecesFrom started ((low, high) :: owed) (byte :: rest) =
      .illFormed started.reverse .badContinuation :: piecesFrom [] [] (byte :: rest) := by
  rw [piecesFrom, piecesFrom, if_neg unpaid]
  rfl

/-- A byte completes or begins one piece at most, next to ending one that was begun. -/
theorem exists_stage_cons {started : List UInt8} {owed : Owed} (stage : Stage started owed)
    (byte : UInt8) :
    ∃ next owing made, Stage next owing ∧ made + begun next ≤ begun started + 1 ∧
      ∀ rest, (piecesFrom started owed (byte :: rest)).length =
        made + (piecesFrom next owing rest).length := by
  obtain ⟨entered, single⟩ := stage_enter byte
  cases stage with
  | between =>
      refine ⟨_, _, _, entered, Nat.le_of_eq single, fun rest => ?_⟩
      rw [piecesFrom, List.length_append]
  | inside some owes continuing =>
      cases owed with
      | nil => exact absurd rfl owes
      | cons range owed =>
          obtain ⟨low, high⟩ := range
          rw [begun_of_ne_nil some]
          by_cases paid : low ≤ byte ∧ byte ≤ high
          · cases owed with
            | nil =>
                refine ⟨[], [], 1, .between, by decide, fun rest => ?_⟩
                simp [piecesFrom, paid, Nat.add_comm]
            | cons range owed =>
                refine ⟨byte :: started, range :: owed, 0, ?_, by simp [begun], fun rest => ?_⟩
                · exact .inside (by simp) (by simp) (List.forall_mem_cons.mp continuing).2
                · simp [piecesFrom, paid]
          · refine ⟨_, _, (enter byte).1.length + 1, entered, by omega, fun rest => ?_⟩
            rw [piecesFrom_of_unpaid paid, List.length_cons, piecesFrom, List.length_append]
            exact Nat.add_right_comm ..

theorem length_piecesFrom_nil (started : List UInt8) (owed : Owed) :
    (piecesFrom started owed []).length = begun started := by
  rw [piecesFrom, begun]
  split <;> rfl

/-- The first byte of a character continues no other one. -/
theorem exists_lead (c : Char) :
    ∃ lead tail, String.utf8EncodeChar c = lead :: tail ∧ ¬ (0x80 ≤ lead ∧ lead ≤ 0xbf) := by
  unfold String.utf8EncodeChar
  have valid := c.valid
  simp only [UInt32.isValidChar, Nat.isValidChar] at valid
  generalize c.val.toNat = v at valid
  dsimp only
  simp only [UInt8.le_iff_toNat_le]
  split_ifs
  · exact ⟨_, _, rfl, by simp; omega⟩
  · exact ⟨_, _, rfl, by simp; omega⟩
  · exact ⟨_, _, rfl, by simp; omega⟩
  · exact ⟨_, _, rfl, by simp; omega⟩

/-- A character that is written as it is makes a piece of its own. -/
theorem length_piecesFrom_utf8EncodeChar {started : List UInt8} {owed : Owed}
    (stage : Stage started owed) (c : Char) (rest : List UInt8) :
    (piecesFrom started owed (String.utf8EncodeChar c ++ rest)).length =
      begun started + 1 + (piecesFrom [] [] rest).length := by
  cases stage with
  | between =>
      rw [piecesFrom_utf8EncodeChar, List.length_cons, begun]
      exact Nat.add_comm _ 1
  | inside some owes continuing =>
      cases owed with
      | nil => exact absurd rfl owes
      | cons range owed =>
          obtain ⟨low, high⟩ := range
          obtain ⟨lead, tail, bytes, leads⟩ := exists_lead c
          have unpaid : ¬ (low ≤ lead ∧ lead ≤ high) := by
            obtain ⟨lower, upper⟩ := continuing (low, high) List.mem_cons_self
            exact fun paid => leads ⟨UInt8.le_trans lower paid.1, UInt8.le_trans paid.2 upper⟩
          rw [bytes, List.cons_append, piecesFrom_of_unpaid unpaid, ← List.cons_append, ← bytes,
            piecesFrom_utf8EncodeChar, begun_of_ne_nil some, List.length_cons, List.length_cons]
          omega

end Utf8

namespace Percent

/-- Whether two hexadecimal digits stand in front. -/
def startsWithDigits : List Char → Bool
  | high :: low :: _ => (hexValue? high).isSome && (hexValue? low).isSome
  | _ => false

/-- Whether there is a percent sign with two hexadecimal digits behind it. -/
def hasEscape : List Char → Bool
  | [] => false
  | c :: rest => (c == '%' && startsWithDigits rest) || hasEscape rest

theorem hasEscape_of_plain {high low : Char} {rest : List Char}
    (plain : ∀ h l, hexValue? high = some h → hexValue? low = some l → False) :
    hasEscape ('%' :: high :: low :: rest) = hasEscape (high :: low :: rest) := by
  rw [hasEscape, startsWithDigits]
  cases upper : hexValue? high with
  | none => rfl
  | some h =>
      cases lower : hexValue? low with
      | none => rfl
      | some l => exact (plain h l upper lower).elim

theorem hasEscape_of_ne {c : Char} {rest : List Char}
    (plain : ∀ high low others, c = '%' → rest = high :: low :: others → False) :
    hasEscape (c :: rest) = hasEscape rest := by
  rw [hasEscape]
  by_cases percent : c = '%'
  · match rest with
    | [] | [_] => simp [startsWithDigits]
    | high :: low :: others => exact (plain high low others percent rfl).elim
  · simp [percent]

/-- What is left of a text makes one character at most for each of its own, and fewer when
there is an escape. -/
theorem length_piecesFrom_bytes {started : List UInt8} {owed : Utf8.Owed}
    (stage : Utf8.Stage started owed) (text : List Char) :
    (Utf8.piecesFrom started owed (bytes text)).length + (hasEscape text).toNat ≤
      Utf8.begun started + text.length := by
  fun_induction bytes text generalizing started owed with
  | case1 => exact Nat.le_of_eq (Utf8.length_piecesFrom_nil _ _)
  | case2 high low rest h l upper lower ih =>
      obtain ⟨next, owing, made, after, few, count⟩ :=
        Utf8.exists_stage_cons stage (UInt8.ofNat (h * 16 + l))
      have later := ih after
      have escape : hasEscape ('%' :: high :: low :: rest) = true := by
        simp [hasEscape, startsWithDigits, upper, lower]
      simp only [count, escape, Bool.toNat_true, List.length_cons]
      omega
  | case3 high low rest plain ih =>
      have later := ih .between
      rw [Utf8.length_piecesFrom_utf8EncodeChar stage, hasEscape_of_plain plain, List.length_cons]
      simp only [Utf8.begun, List.isEmpty_nil, if_true] at later
      omega
  | case4 c rest plain ih =>
      have later := ih .between
      rw [Utf8.length_piecesFrom_utf8EncodeChar stage, hasEscape_of_ne plain, List.length_cons]
      simp only [Utf8.begun, List.isEmpty_nil, if_true] at later
      omega

/-- Decoding makes no text longer, and one with an escape shorter. -/
theorem length_decode_le (text : List Char) :
    (decode text).length + (hasEscape text).toNat ≤ text.length := by
  have pieces := length_piecesFrom_bytes .between text
  rw [Utf8.begun, List.isEmpty_nil, if_pos rfl, Nat.zero_add] at pieces
  rw [decode, Utf8.decodeLenient, String.toList_ofList, List.length_map]
  exact pieces

theorem bytes_of_not_hasEscape {text : List Char} (plain : hasEscape text = false) :
    bytes text = Utf8.encodeChars text := by
  fun_induction bytes text with
  | case1 => rfl
  | case2 high low rest h l upper lower ih =>
      simp [hasEscape, startsWithDigits, upper, lower] at plain
  | case3 high low rest digits ih =>
      rw [hasEscape_of_plain digits] at plain
      rw [ih plain, ← Utf8.encodeChars_cons]
  | case4 c rest percent ih =>
      rw [hasEscape_of_ne percent] at plain
      rw [ih plain, Utf8.encodeChars_cons]

/-- A text that keeps its length has no escape. -/
theorem not_hasEscape_of_length {text : List Char} (long : text.length ≤ (decode text).length) :
    hasEscape text = false := by
  have shorter := length_decode_le text
  cases escape : hasEscape text with
  | false => rfl
  | true =>
      rw [escape, Bool.toNat_true] at shorter
      omega

/-- Decoding leaves a text without escapes as it is. -/
theorem decode_of_not_hasEscape {text : List Char} (plain : hasEscape text = false) :
    decode text = text := by
  rw [decode, bytes_of_not_hasEscape plain, Utf8.decodeLenient_encodeChars, String.toList_ofList]

end Percent

end SymbolJump.Text
