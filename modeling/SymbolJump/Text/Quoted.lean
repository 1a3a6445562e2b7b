/-
# Quoted text

A text inside a message stands between quotes: single ones, unless it holds a single quote and
no double quote. The chosen quote, the backslash and the common controls are written with a
backslash, every other character without a visible form by its number, and so is half a character.
-/
import SymbolJump.Text.Digits
import SymbolJump.Text.Pieces
import SymbolJump.Text.Printable
import SymbolJump.Text.Wide

namespace SymbolJump.Text

/-- The quote that encloses a text. -/
def quoteFor (text : List Char) : Char :=
  if text.contains '\'' && !text.contains '"' then '"' else '\''

/-- One character of a quoted text. -/
def quotedChar (quote c : Char) : List Char :=
  if c = quote ∨ c = '\\' then ['\\', c]
  else if c = '\n' then ['\\', 'n']
  else if c = '\r' then ['\\', 'r']
  else if c = '\t' then ['\\', 't']
  else if isPrintable c then [c]
  else if c.toNat < 0x100 then '\\' :: 'x' :: hexPlaces 2 c.toNat
  else if c.toNat < 0x10000 then '\\' :: 'u' :: hexPlaces 4 c.toNat
  else '\\' :: 'U' :: hexPlaces 8 c.toNat

/-- A text between quotes, as messages show it. -/
def quoted (text : String) : String :=
  let chars := text.toList
  let quote := quoteFor chars
  String.ofList (quote :: chars.flatMap (quotedChar quote) ++ [quote])

/-- Half a character, by its number. -/
def namedHalf (glyph : Glyph) : List Char :=
  '\\' :: 'u' :: hexPlaces 4 glyph.code

/-- A wide text between quotes. -/
def quotedWide (text : Wide) : String :=
  let glyphs := glyphs text
  let quote := quoteFor (glyphs.map Glyph.char)
  let shown (glyph : Glyph) : List Char :=
    match glyph with
    | .whole c => quotedChar quote c
    | .half _ => namedHalf glyph
  String.ofList (quote :: glyphs.flatMap shown ++ [quote])

/-- A wide text without quotes. -/
def bareWide (text : Wide) : String :=
  let shown (glyph : Glyph) : List Char :=
    match glyph with
    | .whole c => [c]
    | .half _ => namedHalf glyph
  String.ofList ((glyphs text).flatMap shown)

/-- Bytes between quotes. Those that are no visible ASCII characters are shown by their numbers. -/
def quotedBytes (value : List UInt8) : String :=
  let chars := value.map fun byte => Char.ofNat byte.toNat
  let quote := quoteFor chars
  let shown (c : Char) : List Char :=
    if c.toNat < 0x80 then quotedChar quote c else '\\' :: 'x' :: hexPlaces 2 c.toNat
  String.ofList ('b' :: quote :: chars.flatMap shown ++ [quote])

end SymbolJump.Text
