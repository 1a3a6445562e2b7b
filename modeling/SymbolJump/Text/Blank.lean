/-
# Blank characters and lines

Which characters count as blank when text is trimmed, and where a text breaks into lines. Text
read from a file has its line endings unified first: a carriage return, alone or before a line
feed, reads as a line feed.
-/
import SymbolJump.Text.Pieces
import SymbolJump.Text.Ranges

namespace SymbolJump.Text

/-- The blank characters: the separators of the Unicode character database together with the
controls that move the reading position. -/
def blankRanges : List (Nat × Nat) :=
  [(0x09, 0x0d), (0x1c, 0x20), (0x85, 0x85), (0xa0, 0xa0), (0x1680, 0x1680), (0x2000, 0x200a),
   (0x2028, 0x2029), (0x202f, 0x202f), (0x205f, 0x205f), (0x3000, 0x3000)]

/-- Whether a character is dropped from the ends of a trimmed text. -/
def isBlank (c : Char) : Bool :=
  inRanges blankRanges c

/-- A text without the blank characters at its ends. -/
def trim (text : String) : String :=
  String.ofList (trimBoth isBlank text.toList)

/-- The characters that end a line. A carriage return and the line feed after it end one line
together. -/
def isLineBreak (c : Char) : Bool :=
  inRanges [(0x0a, 0x0d), (0x1c, 0x1e), (0x85, 0x85), (0x2028, 0x2029)] c

/-- The lines of a text, from the characters of the line being read, in reverse. -/
def linesFrom (current : List Char) : List Char → List (List Char)
  | [] => if current.isEmpty then [] else [current.reverse]
  | '\r' :: '\n' :: rest => current.reverse :: linesFrom [] rest
  | c :: rest =>
      if isLineBreak c then current.reverse :: linesFrom [] rest
      else linesFrom (c :: current) rest

/-- The lines of a text without what ends them. Nothing after the last line break is no line. -/
def lines (text : String) : List String :=
  (linesFrom [] text.toList).map String.ofList

/-- A text with every carriage return, alone or before a line feed, replaced by a line feed. -/
def unifyLineEndings : List Char → List Char
  | [] => []
  | '\r' :: '\n' :: rest => '\n' :: unifyLineEndings rest
  | '\r' :: rest => '\n' :: unifyLineEndings rest
  | c :: rest => c :: unifyLineEndings rest

end SymbolJump.Text
