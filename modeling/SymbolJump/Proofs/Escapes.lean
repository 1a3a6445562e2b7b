/-
# Percent encodings

Whoever percent-encodes a text has a choice: which characters stand for themselves, and in which
case the digits of the others are written. Encoding is therefore a relation here. Whatever was
chosen, decoding recovers the text, as long as no percent sign stands for itself.
-/
import SymbolJump.Proofs.Bytes
import SymbolJump.Text.Percent

namespace SymbolJump.Text.Percent

/-- Bytes written by a percent sign and two hexadecimal digits each, in either case. -/
inductive Escapes : List UInt8 → List Char → Prop
  | nil : Escapes [] []
  | cons {bytes : List UInt8} {high low : Char} {escaped : List Char} {h l : Nat}
      (upper : hexValue? high = some h) (lower : hexValue? low = some l)
      (others : Escapes bytes escaped) :
      Escapes (UInt8.ofNat (h * 16 + l) :: bytes) ('%' :: high :: low :: escaped)

/-- A text and an encoding of it, in which some characters may stand for themselves. -/
inductive Encodes (mayStand : Char → Bool) : List Char → List Char → Prop
  | nil : Encodes mayStand [] []
  | stand {c : Char} {text encoded : List Char} (plain : mayStand c = true)
      (others : Encodes mayStand text encoded) : Encodes mayStand (c :: text) (c :: encoded)
  | escape {c : Char} {text escaped encoded : List Char}
      (escapes : Escapes (String.utf8EncodeChar c) escaped)
      (others : Encodes mayStand text encoded) : Encodes mayStand (c :: text) (escaped ++ encoded)

theorem bytes_of_escapes {bytes : List UInt8} {escaped : List Char}
    (escapes : Escapes bytes escaped) (rest : List Char) :
    Percent.bytes (escaped ++ rest) = bytes ++ Percent.bytes rest := by
  induction escapes with
  | nil => rfl
  | cons upper lower others ih =>
      simp only [List.cons_append, Percent.bytes, upper, lower, ih]

theorem bytes_cons_of_ne {c : Char} (plain : c ≠ '%') (rest : List Char) :
    Percent.bytes (c :: rest) = String.utf8EncodeChar c ++ Percent.bytes rest := by
  rw [Percent.bytes]
  rintro high low rest rfl
  exact absurd rfl plain

/-- The bytes that an encoding stands for are those of the text. -/
theorem bytes_of_encodes {mayStand : Char → Bool} (plain : ∀ c, mayStand c = true → c ≠ '%')
    {text encoded : List Char} (encodes : Encodes mayStand text encoded) :
    Percent.bytes encoded = Utf8.encodeChars text := by
  induction encodes with
  | nil => rfl
  | stand stands others ih => rw [bytes_cons_of_ne (plain _ stands), ih, Utf8.encodeChars_cons]
  | escape escapes others ih => rw [bytes_of_escapes escapes, ih, Utf8.encodeChars_cons]

/-- Decoding recovers a text from each of its encodings. -/
theorem decode_of_encodes {mayStand : Char → Bool} (plain : ∀ c, mayStand c = true → c ≠ '%')
    {text encoded : List Char} (encodes : Encodes mayStand text encoded) :
    decode encoded = text := by
  rw [decode, bytes_of_encodes plain encodes, Utf8.decodeLenient_encodeChars, String.toList_ofList]

/-- The characters that escapes are written with. -/
def isEscapeChar (c : Char) : Bool :=
  c == '%' || (hexValue? c).isSome

theorem isEscapeChar_of_escapes {bytes : List UInt8} {escaped : List Char}
    (escapes : Escapes bytes escaped) : ∀ c ∈ escaped, isEscapeChar c = true := by
  induction escapes with
  | nil => exact fun _ member => nomatch member
  | cons upper lower others ih =>
      simp only [List.forall_mem_cons]
      exact ⟨rfl, by simp [isEscapeChar, upper], by simp [isEscapeChar, lower], ih⟩

/-- An encoding holds escapes and characters that may stand for themselves, and no others. -/
theorem mem_of_encodes {mayStand : Char → Bool} {text encoded : List Char}
    (encodes : Encodes mayStand text encoded) :
    ∀ c ∈ encoded, mayStand c = true ∨ isEscapeChar c = true := by
  induction encodes with
  | nil => exact fun _ member => nomatch member
  | stand stands others ih => exact List.forall_mem_cons.mpr ⟨.inl stands, ih⟩
  | escape escapes others ih =>
      intro c member
      rcases List.mem_append.mp member with here | there
      · exact .inr (isEscapeChar_of_escapes escapes c here)
      · exact ih c there

/-- A byte written by its number, with large digits. -/
def escapeByte (byte : UInt8) : List Char :=
  '%' :: (hexPlaces 2 byte.toNat).map Char.toUpper

/-- A text in which all characters are encoded but those that may stand for themselves. -/
def encode (mayStand : Char → Bool) (text : List Char) : List Char :=
  text.flatMap fun c =>
    if mayStand c then [c] else (String.utf8EncodeChar c).flatMap escapeByte

theorem hexValue?_toUpper_hexDigit (value : Nat) (small : value < 16) :
    hexValue? (hexDigit value).toUpper = some value := by
  have each : ∀ digit : Fin 16, hexValue? (hexDigit digit).toUpper = some digit.val := by decide
  exact each ⟨value, small⟩

theorem escapes_flatMap_escapeByte (bytes : List UInt8) :
    Escapes bytes (bytes.flatMap escapeByte) := by
  induction bytes with
  | nil => exact .nil
  | cons byte bytes ih =>
      have bound := byte.toNat_lt
      have next := Escapes.cons
        (hexValue?_toUpper_hexDigit (byte.toNat / 16 % 16) (Nat.mod_lt _ (by decide)))
        (hexValue?_toUpper_hexDigit (byte.toNat % 16) (Nat.mod_lt _ (by decide))) ih
      have value : byte.toNat / 16 % 16 * 16 + byte.toNat % 16 = byte.toNat := by omega
      rw [value, UInt8.ofNat_toNat] at next
      exact next

theorem encodes_encode (mayStand : Char → Bool) (text : List Char) :
    Encodes mayStand text (encode mayStand text) := by
  induction text with
  | nil => exact .nil
  | cons c text ih =>
      rw [encode, List.flatMap_cons]
      split
      · next plain => exact .stand plain ih
      · exact .escape (escapes_flatMap_escapeByte _) ih

end SymbolJump.Text.Percent
