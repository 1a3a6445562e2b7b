/-
# A place in a document

A document of the configuration language is read character by character, and what a character
means depends on the column where it stands. A cursor is the text that is still to be read with
the column and the number of the line; reading past the end gives a null character, which no
document holds.
-/
import SymbolJump.Text.Ranges

namespace SymbolJump.Yaml

open Text

/-- Why a text is no document. -/
inductive Problem
  /-- The text holds a character that documents may not hold. -/
  | forbiddenCharacter
  /-- No token starts with the character. -/
  | noToken (c : Char)
  /-- A key on its own line lacks its colon. -/
  | missingColon
  /-- An item, a key or a value stands where none may. -/
  | misplaced
  | badName
  | badBlockHeader
  | badEscape
  /-- The text ends, or the document does, inside quotes. -/
  | unclosedQuotes
  | unexpectedToken
  | unknownAlias (name : String)
  | repeatedAnchor (name : String)
  | severalDocuments
  /-- A list or an object stands as a key. -/
  | badKey
  /-- A part of the language that configurations do not use. -/
  | unsupported
  /-- A plain word that has no value. -/
  | noValue
  /-- A number in a base lacks its digits. -/
  | noDigits (base : Nat)
  /-- A number has too many digits. -/
  | longNumeral (length : Nat)
  /-- A number that counts in sixties has too many places. -/
  | longSixties
  /-- No character has the number. -/
  | noCharacter (code : Nat)
deriving DecidableEq, Repr

/-- The wording of a problem. -/
def Problem.message : Problem → String
  | forbiddenCharacter => "special characters are not allowed"
  | noToken c => "found character " ++ String.singleton c ++ " that cannot start any token"
  | missingColon => "could not find expected ':'"
  | misplaced => "an entry, a key or a value is not allowed here"
  | badName => "expected letters or digits in a name"
  | badBlockHeader => "expected chomping or indentation indicators"
  | badEscape => "found unknown escape character"
  | unclosedQuotes => "found unexpected end of a quoted scalar"
  | unexpectedToken => "did not find expected token"
  | unknownAlias name => "found undefined alias " ++ name
  | repeatedAnchor name => "found duplicate anchor " ++ name
  | severalDocuments => "expected a single document in the stream"
  | badKey => "found unhashable key"
  | unsupported => "found a part of the language that is not supported"
  | noValue => "found a word without a value"
  | noDigits _ => "found a number without digits"
  | longNumeral _ => "found a number with too many digits"
  | longSixties => "found a number with too many places"
  | noCharacter _ => "found the number of no character"

/-- Whether a document may hold a character. -/
def isAllowed (c : Char) : Bool :=
  inRanges [(0x09, 0x0a), (0x0d, 0x0d), (0x20, 0x7e), (0x85, 0x85), (0xa0, 0xfffd),
    (0x10000, 0x10ffff)] c

/-- The text still to be read, where it starts, and the number of characters before it. -/
structure Cursor where
  rest : List Char
  index : Nat := 0
  line : Nat := 0
  column : Nat := 0

/-- The character that stands for the end of the text. -/
def endMark : Char := '\x00'

/-- Whether a character breaks a line. -/
def isBreak (c : Char) : Bool :=
  c == '\n' || c == '\r' || c == '\u0085' || c == '\u2028' || c == '\u2029'

/-- Whether a character breaks a line or ends the text. -/
def isBreakOrEnd (c : Char) : Bool :=
  isBreak c || c == endMark

/-- Whether a character separates tokens or ends the text. -/
def isGapOrEnd (c : Char) : Bool :=
  isBreakOrEnd c || c == ' ' || c == '\t'

namespace Cursor

/-- The character a number of places ahead. -/
def ahead (cursor : Cursor) (places : Nat) : Char :=
  (cursor.rest[places]?).getD endMark

/-- The next character. -/
def peek (cursor : Cursor) : Char :=
  cursor.ahead 0

/-- Whether nothing is left. -/
def atEnd (cursor : Cursor) : Bool :=
  cursor.rest.isEmpty

/-- The cursor after one character. A line ends after its break; of a carriage return and a
line feed only the second counts. -/
def next (cursor : Cursor) : Cursor :=
  match cursor.rest with
  | [] => cursor
  | c :: rest =>
      let moved := { cursor with rest, index := cursor.index + 1 }
      if c = '\r' ∧ rest.head? = some '\n' then { moved with column := cursor.column + 1 }
      else if isBreak c then { moved with line := cursor.line + 1, column := 0 }
      else if c = '\ufeff' then moved
      else { moved with column := cursor.column + 1 }

/-- The cursor after a number of characters. -/
def skip (cursor : Cursor) : Nat → Cursor
  | 0 => cursor
  | count + 1 => cursor.next.skip count

/-- The characters up to the first that fails a test, and the cursor after them. -/
def takeWhile (p : Char → Bool) (cursor : Cursor) : List Char × Cursor :=
  let taken := cursor.rest.takeWhile p
  (taken, cursor.skip taken.length)

/-- The cursor after the characters up to the first that fails a test. -/
def skipWhile (p : Char → Bool) (cursor : Cursor) : Cursor :=
  (cursor.takeWhile p).2

/-- A line break, in the form in which texts keep it, and the cursor after it; nothing when no
line break comes next. -/
def lineBreak (cursor : Cursor) : List Char × Cursor :=
  match cursor.rest with
  | '\r' :: '\n' :: _ => (['\n'], cursor.skip 2)
  | '\u2028' :: _ => (['\u2028'], cursor.next)
  | '\u2029' :: _ => (['\u2029'], cursor.next)
  | c :: _ => if isBreak c then (['\n'], cursor.next) else ([], cursor)
  | [] => ([], cursor)

/-- Whether the line starts with a mark between documents, three times the given character. -/
def startsWithMark (cursor : Cursor) (mark : Char) : Bool :=
  [mark, mark, mark].isPrefixOf cursor.rest && isGapOrEnd (cursor.ahead 3)

/-- Whether the line starts with either mark between documents. -/
def startsWithAnyMark (cursor : Cursor) : Bool :=
  cursor.startsWithMark '-' || cursor.startsWithMark '.'

/-- The cursor after a comment, if one comes next. -/
def skipComment (cursor : Cursor) : Cursor :=
  if cursor.peek = '#' then cursor.skipWhile fun c => !isBreak c else cursor

end Cursor

end SymbolJump.Yaml
