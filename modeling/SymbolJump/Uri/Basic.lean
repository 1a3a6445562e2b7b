/-
# Parts of a URI

A URI is cut into its authority, path and query; the scheme and the fragment are dropped. Cutting
follows the practice of readers that take what people paste: control characters and blanks in
front and line breaks anywhere are ignored, a scheme counts only when it is well formed, and
the authority is checked for brackets that do not pair up and for characters that would turn
into separators.
-/
import SymbolJump.Fault
import SymbolJump.Uri.Address

namespace SymbolJump

open Text

/-- The parts of a URI that requests and index entries use. -/
structure Uri where
  authority : List Char
  path : List Char
  query : List Char
deriving DecidableEq

namespace Uri

/-- A text without what a URI ignores: control characters and blanks in front, and tabs and line
breaks anywhere. -/
def clean (text : List Char) : List Char :=
  (text.dropWhile fun c => c.toNat ≤ 0x20).filter fun c => c ≠ '\t' ∧ c ≠ '\r' ∧ c ≠ '\n'

/-- Whether a character may stand in a scheme. -/
def isSchemeChar (c : Char) : Bool :=
  isAsciiLetter c || isAsciiDigit c || c == '+' || c == '-' || c == '.'

/-- A text without its scheme. The scheme starts with a letter and ends at the first colon. -/
def dropScheme (text : List Char) : List Char :=
  match cutAt ':' text with
  | (scheme, some rest) =>
      if (scheme.head?.map isAsciiLetter).getD false && scheme.all isSchemeChar then rest else text
  | (_, none) => text

/-- Whether a character ends the authority. -/
def endsAuthority (c : Char) : Bool :=
  c == '/' || c == '?' || c == '#'

/-- The authority at the front of a text, after two slashes, and what follows it. -/
def cutAuthority : List Char → List Char × List Char
  | '/' :: '/' :: rest =>
      (rest.takeWhile fun c => !endsAuthority c, rest.dropWhile fun c => !endsAuthority c)
  | text => ([], text)

/-- The characters whose compatibility form holds a separator of URIs. -/
def disguisedRanges : List (Nat × Nat) :=
  [(0x2047, 0x2049), (0x2100, 0x2101), (0x2105, 0x2106), (0x2a74, 0x2a74), (0xfe13, 0xfe13),
   (0xfe16, 0xfe16), (0xfe55, 0xfe56), (0xfe5f, 0xfe5f), (0xfe6b, 0xfe6b), (0xff03, 0xff03),
   (0xff0f, 0xff0f), (0xff1a, 0xff1a), (0xff1f, 0xff20)]

/-- What is wrong with the host of an authority that holds brackets. -/
def hostError? (host : List Char) : Option AuthorityError :=
  if host.head? = some 'v' then
    if isLaterVersion host then none else some .laterVersion
  else if isVersionFour host then some .bracketedAddress
  else if isVersionSix host then none
  else some (.noAddress (String.ofList host))

/-- What is wrong with the part of an authority behind its login. The host stands between brackets,
before which nothing and behind which at most a port may stand, or in front of a colon when there
are no brackets here. -/
def placeError? (place : List Char) : Option AuthorityError :=
  match cutAt '[' place with
  | (_, none) => hostError? (cutAt ':' place).1
  | (before, some bracketed) =>
      let (host, port) := cutAt ']' bracketed
      let isPort := (port.bind List.head?).all (· = ':')
      if before.isEmpty && isPort then hostError? host else some .misplacedBracket

/-- What is wrong with the brackets of an authority, whose login ends at the last at sign. -/
def bracketError? (authority : List Char) : Option AuthorityError :=
  match authority.contains '[', authority.contains ']' with
  | false, false => none
  | true, true => placeError? (afterLast '@' authority)
  | _, _ => some .misplacedBracket

/-- What is wrong with an authority. Brackets are looked at first. -/
def authorityError? (authority : List Char) : Option AuthorityError :=
  match bracketError? authority with
  | some error => some error
  | none =>
      if authority.any (inRanges disguisedRanges) then
        some (.disguisedSeparator (String.ofList authority))
      else none

/-- The parts of a URI. -/
def split (text : String) : Except AuthorityError Uri :=
  let (authority, rest) := cutAuthority (dropScheme (clean text.toList))
  match authorityError? authority with
  | some error => .error error
  | none =>
      let (path, query) := cutAt '?' (cutAt '#' rest).1
      .ok { authority, path, query := query.getD [] }

/-- What follows the authority at the front of some glyphs, after two slashes. -/
def dropAuthority : List Glyph → List Glyph
  | .whole '/' :: .whole '/' :: rest => rest.dropWhile fun glyph => !endsAuthority glyph.char
  | text => text

/-- The path of a file URI. A path may hold halves of characters, which are neither separators nor
blanks. -/
def filePath (uri : List Glyph) : List Glyph :=
  let clean := uri.filter fun glyph => glyph.char ≠ '\t' ∧ glyph.char ≠ '\r' ∧ glyph.char ≠ '\n'
  (dropAuthority (clean.drop "file:".length)).takeWhile fun glyph =>
    glyph.char ≠ '#' ∧ glyph.char ≠ '?'

end Uri

end SymbolJump
