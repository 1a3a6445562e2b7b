/-
# Tokens of a document

The indentation of a document says which lists and mappings its lines belong to. Cutting a
document into tokens makes that explicit: the start and the end of each indented structure
become tokens, and a key on a line is marked as one when the colon after it is found. To that
end every place where a key may start is remembered until its line ends.
-/
import SymbolJump.Yaml.Scalar

namespace SymbolJump.Yaml

open Text

/-- A token of a document. -/
inductive Token
  | documentStart
  | documentEnd
  | blockList
  | blockMapping
  | blockEnd
  | openList
  | closeList
  | openMapping
  | closeMapping
  /-- A dash in front of an item. -/
  | item
  | comma
  | key
  | value
  | aliasOf (name : String)
  | anchor (name : String)
  | scalar (text : List Char) (plain : Bool)
  | finish
deriving DecidableEq, Repr

/-- A place where a key may have started. -/
structure KeyPlace where
  /-- The number of tokens before it. -/
  position : Nat
  /-- Whether nothing but a key can stand there. -/
  required : Bool
  index : Nat
  line : Nat
  column : Nat

/-- How far cutting has come. -/
structure Cutting where
  cursor : Cursor
  tokens : Array Token := #[]
  /-- The number of brackets that are open. -/
  flow : Nat := 0
  /-- The column of the innermost indented structure, and those of the ones around it. -/
  indent : Int := -1
  indents : List Int := []
  /-- Whether a key may start at the next token. -/
  keyMayStart : Bool := true
  /-- The places where a key may have started, by the number of open brackets. -/
  places : List (Nat × KeyPlace) := []

namespace Cutting

/-- Add a token. -/
def push (cutting : Cutting) (token : Token) : Cutting :=
  { cutting with tokens := cutting.tokens.push token }

/-- Go on at another place. -/
def goTo (cutting : Cutting) (cursor : Cursor) : Cutting :=
  { cutting with cursor }

/-- Say whether a key may start at the next token. -/
def allow (cutting : Cutting) (keyMayStart : Bool) : Cutting :=
  { cutting with keyMayStart }

/-- The longest text that a key on its own line may have. -/
def keyLimit : Nat := 1024

/-- Forget the places whose line is over. A key that was required must have shown up. -/
def dropStale (cutting : Cutting) : Except Problem Cutting :=
  let isStale (entry : Nat × KeyPlace) : Bool :=
    entry.2.line != cutting.cursor.line || keyLimit < cutting.cursor.index - entry.2.index
  if cutting.places.any fun entry => isStale entry && entry.2.required then .error .missingColon
  else .ok { cutting with places := cutting.places.filter fun entry => !isStale entry }

/-- Forget the place remembered between the innermost brackets. -/
def dropPlace (cutting : Cutting) : Except Problem Cutting :=
  if cutting.places.any fun entry => entry.1 == cutting.flow && entry.2.required then
    .error .missingColon
  else .ok { cutting with places := cutting.places.filter fun entry => entry.1 != cutting.flow }

/-- Remember that a key may start here, if one may. -/
def savePlace (cutting : Cutting) : Except Problem Cutting :=
  if cutting.keyMayStart then do
    let cursor := cutting.cursor
    let place : KeyPlace :=
      { position := cutting.tokens.size
        required := cutting.flow == 0 && cutting.indent == (cursor.column : Int)
        index := cursor.index
        line := cursor.line
        column := cursor.column }
    let cutting ← cutting.dropPlace
    return { cutting with places := (cutting.flow, place) :: cutting.places }
  else .ok cutting

/-- End the indented structures that start right of a column. Between brackets columns do not
count. -/
def closeBlocks (column : Int) : (indents : List Int) → Cutting → Cutting
  | indents, cutting =>
      if cutting.flow = 0 ∧ column < cutting.indent then
        match indents with
        | [] => cutting
        | outer :: indents =>
            closeBlocks column indents
              { cutting.push .blockEnd with indent := outer, indents := indents }
      else cutting

/-- End the indented structures that start right of a column. -/
def unwind (cutting : Cutting) (column : Int) : Cutting :=
  closeBlocks column cutting.indents cutting

/-- Start an indented structure at a column, unless one has started there; the position is that
of its first token. -/
def openBlock (cutting : Cutting) (column : Nat) (position : Nat) (token : Token) : Cutting :=
  if cutting.indent < column then
    { cutting with
      indents := cutting.indent :: cutting.indents
      indent := column
      tokens := cutting.tokens.insertIdxIfInBounds position token }
  else cutting

/-- The cursor at the next token, and whether line breaks were passed. -/
def skipGap : (fuel : Nat) → (broke : Bool) → Cursor → Bool × Cursor
  | 0, broke, cursor => (broke, cursor)
  | fuel + 1, broke, cursor =>
      let cursor := (cursor.skipWhile (· == ' ')).skipComment
      match cursor.lineBreak with
      | ([], _) => (broke, cursor)
      | (_, cursor) => skipGap fuel true cursor

/-- Go to the next token. After a line break outside brackets a key may start. -/
def toNextToken (cutting : Cutting) : Cutting :=
  let cursor :=
    if cutting.cursor.index = 0 ∧ cutting.cursor.peek = '\ufeff' then cutting.cursor.next
    else cutting.cursor
  let (broke, cursor) := skipGap (cursor.rest.length + 1) false cursor
  { cutting with cursor, keyMayStart := cutting.keyMayStart || (broke && cutting.flow == 0) }

/-- A mark between documents. -/
def takeMark (cutting : Cutting) (token : Token) : Except Problem Cutting := do
  let cutting ← (cutting.unwind (-1)).dropPlace
  return ((cutting.push token).goTo (cutting.cursor.skip 3)).allow false

/-- An opening bracket. -/
def takeOpening (cutting : Cutting) (token : Token) : Except Problem Cutting := do
  let cutting ← cutting.savePlace
  let cutting := (cutting.push token).goTo cutting.cursor.next
  return { cutting with flow := cutting.flow + 1, keyMayStart := true }

/-- A closing bracket. -/
def takeClosing (cutting : Cutting) (token : Token) : Except Problem Cutting := do
  if cutting.flow = 0 then throw .unexpectedToken
  let cutting ← cutting.dropPlace
  let cutting := (cutting.push token).goTo cutting.cursor.next
  return { cutting with flow := cutting.flow - 1, keyMayStart := false }

/-- A comma between brackets. -/
def takeComma (cutting : Cutting) : Except Problem Cutting := do
  let cutting ← cutting.dropPlace
  return ((cutting.push .comma).goTo cutting.cursor.next).allow true

/-- An indicator of the innermost indented structure: a dash or a question mark. -/
def takeIndicator (cutting : Cutting) (structureToken token : Token) (keyAfter : Bool) :
    Except Problem Cutting := do
  if cutting.flow = 0 ∧ !cutting.keyMayStart then throw .misplaced
  let cutting :=
    if cutting.flow = 0 then
      cutting.openBlock cutting.cursor.column cutting.tokens.size structureToken
    else cutting
  let cutting ← cutting.dropPlace
  return ((cutting.push token).goTo cutting.cursor.next).allow keyAfter

/-- A colon after a key. The key is the one that may have started between the same brackets; if
there is none the key is empty or was marked. -/
def takeColon (cutting : Cutting) : Except Problem Cutting := do
  match cutting.places.lookup cutting.flow with
  | some place =>
      let places := cutting.places.filter fun entry => entry.1 != cutting.flow
      let marked : Cutting :=
        { cutting with places, tokens := cutting.tokens.insertIdxIfInBounds place.position .key }
      let opened :=
        if cutting.flow = 0 then marked.openBlock place.column place.position .blockMapping
        else marked
      return ((opened.push .value).goTo cutting.cursor.next).allow false
  | none =>
      if cutting.flow = 0 ∧ !cutting.keyMayStart then throw .misplaced
      let opened :=
        if cutting.flow = 0 then
          cutting.openBlock cutting.cursor.column cutting.tokens.size .blockMapping
        else cutting
      let opened := opened.allow (opened.flow == 0)
      let opened ← opened.dropPlace
      return (opened.push .value).goTo opened.cursor.next

/-- Whether a character may stand in the name of an anchor. -/
def isNameChar (c : Char) : Bool :=
  isAsciiLetter c || isAsciiDigit c || c == '-' || c == '_'

/-- An anchor or an alias. -/
def takeName (cutting : Cutting) (token : String → Token) : Except Problem Cutting := do
  let cutting ← cutting.savePlace
  let (name, cursor) := cutting.cursor.next.takeWhile isNameChar
  let c := cursor.peek
  if name.isEmpty then throw .badName
  if isGapOrEnd c || ['?', ':', ',', ']', '\x7d', '%', '@', '\x60'].contains c then
    return ((cutting.push (token (String.ofList name))).goTo cursor).allow false
  else throw .badName

/-- A block of lines. -/
def takeBlock (cutting : Cutting) (fold : Bool) : Except Problem Cutting := do
  let cutting ← (cutting.allow true).dropPlace
  let (text, cursor) ← readBlock fold cutting.indent cutting.cursor.next
  return (cutting.push (.scalar text false)).goTo cursor

/-- A scalar between quotes. -/
def takeQuoted (cutting : Cutting) (quote : Char) : Except Problem Cutting := do
  let cutting ← cutting.savePlace
  let cursor := cutting.cursor.next
  let (text, cursor) ← readQuoted quote (cursor.rest.length + 1) [] cursor
  return ((cutting.push (.scalar text false)).goTo cursor).allow false

/-- A plain scalar. -/
def takePlain (cutting : Cutting) : Except Problem Cutting := do
  let cutting ← cutting.savePlace
  let cursor := cutting.cursor
  let (text, broke, cursor) :=
    readPlain (cutting.flow != 0) cutting.indent (cursor.rest.length + 1) [] [] false cursor
  return ((cutting.push (.scalar text true)).goTo cursor).allow broke

/-- Whether a plain scalar may start with a character, seeing the one after it. -/
def startsPlain (inFlow : Bool) (c after : Char) : Bool :=
  !(isGapOrEnd c || ['-', '?', ':', ',', '[', ']', '\x7b', '\x7d', '#', '&', '*', '!', '|', '>',
      '\'', '"', '%', '@', '\x60'].contains c) ||
    (!isGapOrEnd after && (c == '-' || (!inFlow && (c == '?' || c == ':'))))

/-- The end of the text. -/
def takeEnd (cutting : Cutting) : Except Problem Cutting := do
  let cutting ← (cutting.unwind (-1)).dropPlace
  return { cutting.push .finish with places := [], keyMayStart := false }

/-- One token that starts at the cursor. -/
def takeToken (cutting : Cutting) : Except Problem Cutting :=
  let cursor := cutting.cursor
  let c := cursor.peek
  let inFlow := cutting.flow != 0
  let gapAfter := isGapOrEnd (cursor.ahead 1)
  if cursor.column = 0 ∧ c = '%' then .error .unsupported
  else if cursor.column = 0 ∧ cursor.startsWithMark '-' then cutting.takeMark .documentStart
  else if cursor.column = 0 ∧ cursor.startsWithMark '.' then cutting.takeMark .documentEnd
  else if c = '[' then cutting.takeOpening .openList
  else if c = '\x7b' then cutting.takeOpening .openMapping
  else if c = ']' then cutting.takeClosing .closeList
  else if c = '\x7d' then cutting.takeClosing .closeMapping
  else if c = ',' then cutting.takeComma
  else if c = '-' ∧ gapAfter then cutting.takeIndicator .blockList .item true
  else if c = '?' ∧ (inFlow ∨ gapAfter) then
    cutting.takeIndicator .blockMapping .key (!inFlow)
  else if c = ':' ∧ (inFlow ∨ gapAfter) then cutting.takeColon
  else if c = '*' then cutting.takeName .aliasOf
  else if c = '&' then cutting.takeName .anchor
  else if c = '!' then .error .unsupported
  else if c = '|' ∧ !inFlow then cutting.takeBlock false
  else if c = '>' ∧ !inFlow then cutting.takeBlock true
  else if c = '\'' ∨ c = '"' then cutting.takeQuoted c
  else if startsPlain inFlow c (cursor.ahead 1) then cutting.takePlain
  else .error (.noToken c)

/-- The next token, or none and the end of the text. -/
def step (cutting : Cutting) : Except Problem (Cutting × Bool) := do
  let cutting ← cutting.toNextToken.dropStale
  let cutting := cutting.unwind cutting.cursor.column
  if cutting.cursor.atEnd then return (← cutting.takeEnd, true)
  else return (← cutting.takeToken, false)

/-- The tokens that no key can start among any more. Those after a place where a key may have
started are not yet certain. -/
def certain (cutting : Cutting) : List Token :=
  match cutting.dropStale with
  | .ok kept =>
      cutting.tokens.toList.take
        (kept.places.foldl (fun least entry => min least entry.2.position) cutting.tokens.size)
  | .error _ => cutting.tokens.toList

/-- All tokens from the cursor on. When cutting fails, the certain ones come with the problem. -/
def takeAll : (fuel : Nat) → Cutting → List Token × Option Problem
  | 0, cutting => (cutting.certain, some .unexpectedToken)
  | fuel + 1, cutting =>
      match cutting.step with
      | .error problem => (cutting.certain, some problem)
      | .ok (cutting, true) => (cutting.tokens.toList, none)
      | .ok (cutting, false) => takeAll fuel cutting

end Cutting

/-- The tokens of a document, and the problem that ends them early. Every token but the last
takes a character. -/
def tokens (text : List Char) : List Token × Option Problem :=
  if text.all isAllowed then
    Cutting.takeAll (text.length + 1) { cursor := { rest := text } }
  else ([], some .forbiddenCharacter)

end SymbolJump.Yaml
