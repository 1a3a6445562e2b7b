/-
# Lower case

The lower-case form of a text replaces every character by its partner. Two characters need
more: the capital I with a dot becomes two characters, and the capital sigma takes the form it
has at the end of a word when a letter stands before it and none after it.
-/
import SymbolJump.Text.CaseTable
import SymbolJump.Text.Ranges
import SymbolJump.Text.Wide

namespace SymbolJump.Text

/-- Whether a character lies on a run. -/
def CaseRun.covers (run : CaseRun) (code : Nat) : Bool :=
  run.first ≤ code && code ≤ run.last && (code - run.first) % run.step == 0

/-- The lower-case partner of a character; the character itself when it has none. -/
def lowerChar (c : Char) : Char :=
  match caseRuns.find? (·.covers c.toNat) with
  | some run => Char.ofNat (c.toNat + run.offset).toNat
  | none => c

/-- Whether the first character that is not passed over is a cased letter. -/
def meetsCased (text : List Char) : Bool :=
  match text.dropWhile (inRanges caseIgnorableRanges) with
  | [] => false
  | c :: _ => inRanges casedRanges c

/-- The lower-case form of one character between the text before it, in reverse, and the text
after it. -/
def lowerBetween (before : List Char) (c : Char) (after : List Char) : List Char :=
  if c = '\u03a3' then
    if meetsCased before && !meetsCased after then ['\u03c2'] else ['\u03c3']
  else if c = '\u0130' then ['i', '\u0307']
  else [lowerChar c]

/-- The lower-case form of a text that follows the given text, in reverse. -/
def lowerFrom (before : List Char) : List Char → List Char
  | [] => []
  | c :: rest => lowerBetween before c rest ++ lowerFrom (c :: before) rest

/-- The lower-case form of a text. -/
def lowercase (text : List Char) : List Char :=
  lowerFrom [] text

/-- The lower-case form of some glyphs. Half a character is no letter, and nothing is passed over
where it stands. -/
def lowercaseGlyphs (text : List Glyph) : List Glyph :=
  eachRun lowercase text

end SymbolJump.Text
