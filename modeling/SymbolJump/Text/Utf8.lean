/-
# Text as bytes

A sequence of bytes is read as UTF-8 in one pass. The pass cuts it into pieces: characters, and
ill-formed parts, each the longest sequence that starts a character without completing one.
A strict reading refuses the first ill-formed part and says where it lies; a lenient reading
puts the replacement character in its place.
-/
import SymbolJump.Text.Digits

namespace SymbolJump.Text.Utf8

/-- Why a sequence of bytes is no character. -/
inductive Flaw
  /-- No character starts with the byte. -/
  | badStart
  /-- The next byte cannot continue the character. -/
  | badContinuation
  /-- The text ends inside the character. -/
  | cutShort
deriving DecidableEq, Repr

/-- A part of a sequence of bytes. -/
inductive Piece
  | char (c : Char)
  | illFormed (bytes : List UInt8) (flaw : Flaw)
deriving DecidableEq, Repr

/-- The bytes that may continue a character: a closed range for each byte still owed. -/
abbrev Owed := List (UInt8 × UInt8)

/-- What the first byte of a character asks for; nothing when no character starts with it. -/
def owedAfter (lead : UInt8) : Option Owed :=
  if lead < 0x80 then some []
  else if lead < 0xc2 then none
  else if lead < 0xe0 then some [(0x80, 0xbf)]
  else if lead = 0xe0 then some [(0xa0, 0xbf), (0x80, 0xbf)]
  else if lead = 0xed then some [(0x80, 0x9f), (0x80, 0xbf)]
  else if lead < 0xf0 then some [(0x80, 0xbf), (0x80, 0xbf)]
  else if lead = 0xf0 then some [(0x90, 0xbf), (0x80, 0xbf), (0x80, 0xbf)]
  else if lead < 0xf4 then some [(0x80, 0xbf), (0x80, 0xbf), (0x80, 0xbf)]
  else if lead = 0xf4 then some [(0x80, 0x8f), (0x80, 0xbf), (0x80, 0xbf)]
  else none

/-- The bits that a first byte contributes. -/
def leadBits (lead : UInt8) : Nat :=
  if lead < 0x80 then lead.toNat
  else if lead < 0xe0 then lead.toNat % 0x20
  else if lead < 0xf0 then lead.toNat % 0x10
  else lead.toNat % 0x08

/-- The character that a complete sequence of bytes denotes. -/
def assemble : List UInt8 → Char
  | [] => Char.ofNat 0
  | lead :: tail =>
      Char.ofNat (tail.foldl (fun bits byte => bits * 0x40 + byte.toNat % 0x40) (leadBits lead))

/-- A byte read between characters: the pieces it completes, the bytes of the character it
starts, in reverse, and what that character still owes. -/
def enter (byte : UInt8) : List Piece × List UInt8 × Owed :=
  match owedAfter byte with
  | none => ([.illFormed [byte] .badStart], [], [])
  | some [] => ([.char (assemble [byte])], [], [])
  | some owed => ([], [byte], owed)

/-- The pieces of the bytes that follow a character's start, given in reverse, with what it
still owes. -/
def piecesFrom (started : List UInt8) (owed : Owed) : List UInt8 → List Piece
  | [] => if started.isEmpty then [] else [.illFormed started.reverse .cutShort]
  | byte :: rest =>
      match owed with
      | [] =>
          let (done, started, owed) := enter byte
          done ++ piecesFrom started owed rest
      | (low, high) :: owed =>
          if low ≤ byte ∧ byte ≤ high then
            if owed.isEmpty then
              .char (assemble (byte :: started).reverse) :: piecesFrom [] [] rest
            else piecesFrom (byte :: started) owed rest
          else
            let (done, entered, owed) := enter byte
            .illFormed started.reverse .badContinuation :: done ++ piecesFrom entered owed rest

/-- The pieces of a sequence of bytes. -/
def pieces (bytes : List UInt8) : List Piece :=
  piecesFrom [] [] bytes

/-- The first ill-formed part of a sequence of bytes. -/
structure Malformed where
  position : Nat
  bytes : List UInt8
  flaw : Flaw
deriving DecidableEq, Repr

/-- The characters of the pieces from a position on. -/
def charsFrom (position : Nat) : List Piece → Except Malformed (List Char)
  | [] => .ok []
  | .char c :: rest => do
      let chars ← charsFrom (position + (String.utf8EncodeChar c).length) rest
      return c :: chars
  | .illFormed bytes flaw :: _ => .error ⟨position, bytes, flaw⟩

/-- The text that a sequence of bytes encodes. -/
def decode (bytes : List UInt8) : Except Malformed String :=
  (charsFrom 0 (pieces bytes)).map String.ofList

/-- A piece read leniently. -/
def Piece.lenient : Piece → Char
  | .char c => c
  | .illFormed _ _ => '\ufffd'

/-- The text that a sequence of bytes encodes, with the replacement character for every
ill-formed part. -/
def decodeLenient (bytes : List UInt8) : String :=
  String.ofList ((pieces bytes).map Piece.lenient)

/-- The bytes of a list of characters. -/
def encodeChars (text : List Char) : List UInt8 :=
  text.flatMap String.utf8EncodeChar

/-- The bytes of a text. -/
def encode (text : String) : List UInt8 :=
  encodeChars text.toList

/-- The wording of a flaw. -/
def Flaw.message : Flaw → String
  | .badStart => "invalid start byte"
  | .badContinuation => "invalid continuation byte"
  | .cutShort => "unexpected end of data"

/-- The wording of a strict reading's refusal. One byte is shown by its value, several by their
positions. -/
def Malformed.message (malformed : Malformed) : String :=
  let start := malformed.position
  let place :=
    match malformed.bytes with
    | [byte] =>
        "byte 0x" ++ String.ofList (hexPlaces 2 byte.toNat) ++ " in position " ++ toString start
    | bytes =>
        "bytes in position " ++ toString start ++ "-" ++ toString (start + bytes.length - 1)
  "'utf-8' codec can't decode " ++ place ++ ": " ++ malformed.flaw.message

end SymbolJump.Text.Utf8
