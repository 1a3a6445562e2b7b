/-
# Scalars

A scalar is a text: plain, between quotes of either kind, or a block of indented lines. Line
breaks inside a scalar are folded: a single one reads as a blank, and of several in a row the
first is dropped. Only a literal block keeps its lines.
-/
import SymbolJump.Text.Digits
import SymbolJump.Yaml.Cursor

namespace SymbolJump.Yaml

open Text

/-- A scalar that has been read: its text and the cursor after it. -/
abbrev Reading := Except Problem (List Char × Cursor)

/-- What a folded run of line breaks reads as: the first break and those after it. -/
def folded (first rest : List Char) : List Char :=
  (if first ≠ ['\n'] then first else if rest.isEmpty then [' '] else []) ++ rest

/-- How the end of a block is treated: one line break is kept, none, or all. -/
inductive Chomping
  | clip
  | strip
  | keep
deriving DecidableEq, Repr

/-- The head of a block: how it ends and how deep it is indented, if that is given. -/
structure BlockHeader where
  chomping : Chomping := .clip
  depth : Option Nat := none

namespace BlockHeader

/-- The chomping that a character asks for. -/
def chomping? (c : Char) : Option Chomping :=
  if c = '+' then some .keep else if c = '-' then some .strip else none

/-- The depth that a character gives, which may not be zero. -/
def depth? (c : Char) : Except Problem (Option Nat) :=
  if isAsciiDigit c then
    if c = '0' then .error .badBlockHeader else .ok (some (c.toNat - '0'.toNat))
  else .ok none

/-- The head of a block after its indicator, with both marks in either order. -/
def read (cursor : Cursor) : Except Problem (BlockHeader × Cursor) := do
  let (header, cursor) ←
    match chomping? cursor.peek with
    | some chomping => do
        let cursor := cursor.next
        let depth ← depth? cursor.peek
        pure (⟨chomping, depth⟩, if depth.isSome then cursor.next else cursor)
    | none => do
        let depth ← depth? cursor.peek
        let cursor := if depth.isSome then cursor.next else cursor
        match if depth.isSome then chomping? cursor.peek else none with
        | some chomping => pure (⟨chomping, depth⟩, cursor.next)
        | none => pure (⟨.clip, depth⟩, cursor)
  let c := cursor.peek
  if c = ' ' ∨ isBreakOrEnd c then
    let rest := (cursor.skipWhile (· = ' ')).skipComment
    if isBreakOrEnd rest.peek then return (header, rest.lineBreak.2)
    else throw .badBlockHeader
  else throw .badBlockHeader

end BlockHeader

/-- The empty lines in front of a block whose depth is not given: their breaks, the largest
column reached, and the cursor after them. -/
def leadingLines : (fuel : Nat) → (breaks : List Char) → (depth : Nat) → Cursor →
    List Char × Nat × Cursor
  | 0, breaks, depth, cursor => (breaks, depth, cursor)
  | fuel + 1, breaks, depth, cursor =>
      if cursor.peek = ' ' then
        let cursor := cursor.next
        leadingLines fuel breaks (max depth cursor.column) cursor
      else
        match cursor.lineBreak with
        | ([], _) => (breaks, depth, cursor)
        | (lineBreak, cursor) => leadingLines fuel (breaks ++ lineBreak) depth cursor

/-- The cursor after blanks, at most up to a column. -/
def skipIndent : (fuel : Nat) → (depth : Nat) → Cursor → Cursor
  | 0, _, cursor => cursor
  | fuel + 1, depth, cursor =>
      if cursor.column < depth ∧ cursor.peek = ' ' then skipIndent fuel depth cursor.next
      else cursor

/-- The empty lines inside a block of a given depth. -/
def emptyLines : (fuel : Nat) → (depth : Nat) → (breaks : List Char) → Cursor →
    List Char × Cursor
  | 0, _, breaks, cursor => (breaks, cursor)
  | fuel + 1, depth, breaks, cursor =>
      let cursor := skipIndent cursor.rest.length depth cursor
      match cursor.lineBreak with
      | ([], _) => (breaks, cursor)
      | (lineBreak, cursor) => emptyLines fuel depth (breaks ++ lineBreak) cursor

/-- The lines of a block: the text so far in reverse, the break before the next line, and the
empty lines after it. -/
def blockLines (fold : Bool) (depth : Nat) :
    (fuel : Nat) → (text lastBreak breaks : List Char) → Cursor →
      List Char × List Char × List Char × Cursor
  | 0, text, lastBreak, breaks, cursor => (text, lastBreak, breaks, cursor)
  | fuel + 1, text, lastBreak, breaks, cursor =>
      if cursor.column = depth ∧ !cursor.atEnd then
        let flush (c : Char) : Bool := c != ' ' && c != '\t'
        let startsFlush := flush cursor.peek
        let (line, cursor) := cursor.takeWhile fun c => !isBreak c
        let (lineBreak, cursor) := cursor.lineBreak
        let (after, cursor) := emptyLines cursor.rest.length depth [] cursor
        let text := line.reverseAux (breaks.reverseAux text)
        if cursor.column = depth ∧ !cursor.atEnd then
          let between :=
            if fold ∧ lineBreak = ['\n'] ∧ startsFlush ∧ flush cursor.peek then
              if after.isEmpty then [' '] else []
            else lineBreak
          blockLines fold depth fuel (between.reverseAux text) lineBreak after cursor
        else (text, lineBreak, after, cursor)
      else (text, lastBreak, breaks, cursor)

/-- A block after its indicator, inside a structure of the given indent. -/
def readBlock (fold : Bool) (indent : Int) (cursor : Cursor) : Reading := do
  let (header, cursor) ← BlockHeader.read cursor
  let least := (max (indent + 1) 1).toNat
  let (depth, breaks, cursor) :=
    match header.depth with
    | none =>
        let (breaks, depth, cursor) := leadingLines cursor.rest.length [] 0 cursor
        (max least depth, breaks, cursor)
    | some given =>
        let depth := least + given - 1
        let (breaks, cursor) := emptyLines (cursor.rest.length + 1) depth [] cursor
        (depth, breaks, cursor)
  let (text, lastBreak, breaks, cursor) :=
    blockLines fold depth (cursor.rest.length + 1) [] [] breaks cursor
  let ending :=
    match header.chomping with
    | .strip => []
    | .clip => lastBreak
    | .keep => lastBreak ++ breaks
  return (text.reverse ++ ending, cursor)

/-- The character that a letter after a backslash stands for. -/
def escaped? : Char → Option Char
  | '0' => some '\x00'
  | 'a' => some '\x07'
  | 'b' => some '\x08'
  | 't' | '\t' => some '\t'
  | 'n' => some '\n'
  | 'v' => some '\x0b'
  | 'f' => some '\x0c'
  | 'r' => some '\r'
  | 'e' => some '\x1b'
  | ' ' => some ' '
  | '"' => some '"'
  | '\\' => some '\\'
  | '/' => some '/'
  | 'N' => some '\u0085'
  | '_' => some '\u00a0'
  | 'L' => some '\u2028'
  | 'P' => some '\u2029'
  | _ => none

/-- The number of hexadecimal digits after a letter that announces a code point. -/
def codeLength? : Char → Option Nat
  | 'x' => some 2
  | 'u' => some 4
  | 'U' => some 8
  | _ => none

/-- The line breaks and blanks after a line break inside quotes. A mark between documents may
not stand there. -/
def quotedBreaks : (fuel : Nat) → (breaks : List Char) → Cursor → Reading
  | 0, breaks, cursor => .ok (breaks, cursor)
  | fuel + 1, breaks, cursor =>
      if cursor.startsWithAnyMark then .error .unclosedQuotes
      else
        let cursor := cursor.skipWhile fun c => c == ' ' || c == '\t'
        match cursor.lineBreak with
        | ([], _) => .ok (breaks, cursor)
        | (lineBreak, cursor) => quotedBreaks fuel (breaks ++ lineBreak) cursor

/-- An escape in double quotes, after its backslash. -/
def readEscape (cursor : Cursor) : Reading :=
  let c := cursor.peek
  if cursor.atEnd then .error .badEscape
  else if let some plain := escaped? c then .ok ([plain], cursor.next)
  else if let some length := codeLength? c then
    let digits := cursor.next.rest.take length
    match if digits.length = length then hexadecimal? digits else none with
    | some code =>
        if code.isValidChar then .ok ([Char.ofNat code], cursor.skip (length + 1))
        else .error (if code < 0x110000 then .unsupported else .noCharacter code)
    | none => .error .badEscape
  else if isBreak c then
    quotedBreaks cursor.rest.length [] cursor.lineBreak.2
  else .error .badEscape

/-- One step inside quotes: nothing at the closing quote, else the characters read. -/
def quotedStep (quote : Char) (cursor : Cursor) : Except Problem (Option (List Char) × Cursor) :=
  let c := cursor.peek
  if cursor.atEnd then .error .unclosedQuotes
  else if c = quote then
    if quote = '\'' ∧ cursor.ahead 1 = '\'' then .ok (some ['\''], cursor.skip 2)
    else .ok (none, cursor.next)
  else if c = '\\' ∧ quote = '"' then
    (readEscape cursor.next).map fun (text, cursor) => (some text, cursor)
  else if c = ' ' ∨ c = '\t' ∨ isBreak c then
    let (blanks, after) := cursor.takeWhile fun c => c == ' ' || c == '\t'
    if after.atEnd then .error .unclosedQuotes
    else match after.lineBreak with
      | ([], _) => .ok (some blanks, after)
      | (lineBreak, after) =>
          (quotedBreaks after.rest.length [] after).map fun (breaks, cursor) =>
            (some (folded lineBreak breaks), cursor)
  else .ok (some [c], cursor.next)

/-- A scalar between quotes, after its opening quote and the characters read so far, which are in
reverse. -/
def readQuoted (quote : Char) : (fuel : Nat) → (text : List Char) → Cursor → Reading
  | 0, _, _ => .error .unclosedQuotes
  | fuel + 1, text, cursor => do
      match ← quotedStep quote cursor with
      | (none, cursor) => return (text.reverse, cursor)
      | (some more, cursor) => readQuoted quote fuel (more.reverseAux text) cursor

/-- Whether a character ends a word of a plain scalar, seeing the character after it. -/
def endsWord (inFlow : Bool) (c after : Char) : Bool :=
  isGapOrEnd c ||
    (c == ':' &&
      (isGapOrEnd after || (inFlow && [',', '[', ']', '\x7b', '\x7d'].contains after))) ||
    (inFlow && [',', '?', '[', ']', '\x7b', '\x7d'].contains c)

/-- The length of the word at the front of a text. -/
def wordLength (inFlow : Bool) : List Char → Nat
  | [] => 0
  | c :: rest =>
      if endsWord inFlow c (rest.head?.getD endMark) then 0 else wordLength inFlow rest + 1

/-- The breaks and blanks after a line break inside a plain scalar; nothing when a mark between
documents follows. -/
def plainBreaks : (fuel : Nat) → (breaks : List Char) → Cursor → Option (List Char) × Cursor
  | 0, breaks, cursor => (some breaks, cursor)
  | fuel + 1, breaks, cursor =>
      if cursor.peek = ' ' then plainBreaks fuel breaks cursor.next
      else
        match cursor.lineBreak with
        | ([], _) => (some breaks, cursor)
        | (lineBreak, cursor) =>
            if cursor.startsWithAnyMark then (none, cursor)
            else plainBreaks fuel (breaks ++ lineBreak) cursor

/-- What lies between two words of a plain scalar: its reading, whether it holds a line break,
and the cursor after it. Nothing is read when the scalar ends there. -/
def plainGap (cursor : Cursor) : List Char × Bool × Cursor :=
  let (blanks, cursor) := cursor.takeWhile (· == ' ')
  match cursor.lineBreak with
  | ([], _) => (blanks, false, cursor)
  | (lineBreak, cursor) =>
      if cursor.startsWithAnyMark then ([], true, cursor)
      else match plainBreaks cursor.rest.length [] cursor with
        | (some breaks, cursor) => (folded lineBreak breaks, true, cursor)
        | (none, cursor) => ([], true, cursor)

/-- The words of a plain scalar after the text so far, which is in reverse: the whole text,
whether a line break was the last thing read, and the cursor after it. -/
def readPlain (inFlow : Bool) (indent : Int) :
    (fuel : Nat) → (text gap : List Char) → (broke : Bool) → Cursor →
      List Char × Bool × Cursor
  | 0, text, _, broke, cursor => (text.reverse, broke, cursor)
  | fuel + 1, text, gap, broke, cursor =>
      let length := wordLength inFlow cursor.rest
      if cursor.peek = '#' ∨ length = 0 then (text.reverse, broke, cursor)
      else
        let text := (cursor.rest.take length).reverseAux (gap.reverseAux text)
        let (gap, broke, cursor) := plainGap (cursor.skip length)
        if gap.isEmpty ∨ cursor.peek = '#' ∨ (!inFlow ∧ (cursor.column : Int) < indent + 1) then
          (text.reverse, broke, cursor)
        else readPlain inFlow indent fuel text gap broke cursor

end SymbolJump.Yaml
