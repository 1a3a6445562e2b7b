/-
# Wide texts

A text inside a file may be written in units of sixteen bits, and then it may hold half a
character: the first unit of a pair without the second, or the second without the first. A wide
text is a list of such units. Its glyphs are its characters, with the halves that are left over
where no pair can be made.
-/
namespace SymbolJump.Text

/-- A text in units of sixteen bits. -/
abbrev Wide := List UInt16

/-- A character, or one of the halves from which characters beyond the first plane are made. -/
inductive Glyph
  | whole (c : Char)
  | half (place : Fin 0x800)
deriving DecidableEq

/-- Whether a unit is the first half of a character. -/
def isHigh (unit : UInt16) : Bool :=
  0xd800 ≤ unit.toNat && unit.toNat < 0xdc00

/-- Whether a unit is the second half of a character. -/
def isLow (unit : UInt16) : Bool :=
  0xdc00 ≤ unit.toNat && unit.toNat < 0xe000

/-- The units of a character. -/
def unitsOf (c : Char) : Wide :=
  if c.toNat < 0x10000 then [.ofNat c.toNat]
  else
    let offset := c.toNat - 0x10000
    [.ofNat (0xd800 + offset / 0x400), .ofNat (0xdc00 + offset % 0x400)]

/-- A text in units. -/
def wide (text : String) : Wide :=
  text.toList.flatMap unitsOf

instance : Coe String Wide := ⟨wide⟩

namespace Glyph

/-- The number of a glyph, by which glyphs are in order. -/
def code : Glyph → Nat
  | whole c => c.toNat
  | half place => 0xd800 + place.val

/-- The glyph that two halves make. -/
def ofPair (high low : UInt16) : Glyph :=
  whole (Char.ofNat (0x10000 + (high.toNat - 0xd800) * 0x400 + (low.toNat - 0xdc00)))

/-- The glyph that a unit is alone. -/
def ofUnit (unit : UInt16) : Glyph :=
  if bounds : 0xd800 ≤ unit.toNat ∧ unit.toNat < 0xe000 then
    half ⟨unit.toNat - 0xd800, by omega⟩
  else whole (Char.ofNat unit.toNat)

/-- The character that stands for a glyph where there are no halves. -/
def char : Glyph → Char
  | whole c => c
  | half _ => '\ufffd'

end Glyph

/-- The glyphs of a wide text. -/
def glyphs : Wide → List Glyph
  | [] => []
  | [unit] => [.ofUnit unit]
  | high :: low :: rest =>
      if isHigh high && isLow low then .ofPair high low :: glyphs rest
      else .ofUnit high :: glyphs (low :: rest)

/-- Whether some glyphs come before others or are the same: the first two that differ decide. -/
def areInOrder : List Glyph → List Glyph → Bool
  | [], _ => true
  | _ :: _, [] => false
  | a :: text, b :: other =>
      if a = b then areInOrder text other else decide (a.code < b.code)

/-- Some glyphs with each run of characters between halves changed, from a run on whose characters
are in reverse. -/
def eachRunFrom (change : List Char → List Char) (run : List Char) : List Glyph → List Glyph
  | [] => (change run.reverse).map .whole
  | .whole c :: rest => eachRunFrom change (c :: run) rest
  | .half place :: rest =>
      (change run.reverse).map .whole ++ .half place :: eachRunFrom change [] rest

/-- Some glyphs with each run of characters between halves changed. -/
def eachRun (change : List Char → List Char) (text : List Glyph) : List Glyph :=
  eachRunFrom change [] text

/-- A text as glyphs. -/
def wholes (text : String) : List Glyph :=
  text.toList.map .whole

/-- The text of some glyphs. Halves are replaced. -/
def mended (text : List Glyph) : String :=
  String.ofList (text.map Glyph.char)

end SymbolJump.Text
