/-
# Percent encoding

A percent sign and two hexadecimal digits stand for a byte; all other characters stand for
their own bytes. The bytes of a text so read are UTF-8, read leniently, since the text comes
from outside.
-/
import SymbolJump.Text.Utf8
import SymbolJump.Text.Wide

namespace SymbolJump.Text.Percent

/-- The bytes of a percent-encoded text. A percent sign without two digits stands for itself. -/
def bytes : List Char → List UInt8
  | [] => []
  | '%' :: high :: low :: rest =>
      match hexValue? high, hexValue? low with
      | some h, some l => UInt8.ofNat (h * 16 + l) :: bytes rest
      | _, _ => String.utf8EncodeChar '%' ++ bytes (high :: low :: rest)
  | c :: rest => String.utf8EncodeChar c ++ bytes rest

/-- The text that a percent-encoded text stands for. -/
def decode (text : List Char) : List Char :=
  (Utf8.decodeLenient (bytes text)).toList

/-- The glyphs that a percent-encoded text stands for. No byte of a character lies on the other side
of half a character. -/
def decodeGlyphs (text : List Glyph) : List Glyph :=
  eachRun decode text

end SymbolJump.Text.Percent
