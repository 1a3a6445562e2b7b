/-
# Addresses in brackets

The authority of a URI may hold an address in brackets. It must be an address of the sixth
version of the protocol, or announce a later version and follow its form. An address of the
fourth version is recognised so that it can be refused: it takes no brackets.
-/
import SymbolJump.Text.Digits
import SymbolJump.Text.Pieces

namespace SymbolJump.Uri

open Text

/-- Whether a text is a number below 256 in decimal, without leading zeros. -/
def isOctet (text : List Char) : Bool :=
  text.all isAsciiDigit && 0 < text.length && text.length ≤ 3 &&
    (text == ['0'] || text.head? != some '0') && (decimal? text).getD 256 < 256

/-- Whether a text is an address of the fourth version: four octets with dots between. -/
def isVersionFour (text : List Char) : Bool :=
  let octets := splitOn '.' text
  octets.length == 4 && octets.all isOctet

/-- Whether a text is one group of an address of the sixth version. -/
def isGroup (text : List Char) : Bool :=
  0 < text.length && text.length ≤ 4 && text.all fun c => (hexValue? c).isSome

/-- The parts of an address between its colons, with an address of the fourth version at the end
replaced by the two groups that it fills. -/
def addressParts (address : List Char) : Option (List (List Char)) :=
  let parts := splitOn ':' address
  let last := parts.getLastD []
  if parts.length < 3 then none
  else if last.contains '.' then
    if isVersionFour last then some (parts.dropLast ++ [['0'], ['0']]) else none
  else some parts

/-- Whether the parts on one side of a double colon are groups. The outer end of the address may
only be empty next to the double colon. -/
def isSide (parts : List (List Char)) : Bool :=
  parts == [[]] || parts.all isGroup

/-- Whether the parts of an address, read between its colons, make an address: eight groups, or
fewer around one double colon. -/
def arePartsOfAddress (parts : List (List Char)) : Bool :=
  let inner := (parts.drop 1).dropLast
  match inner.count [] with
  | 0 => parts.length == 8 && parts.all isGroup
  | 1 =>
      let skip := inner.idxOf [] + 1
      let high := parts.take skip
      let low := parts.drop (skip + 1)
      isSide high && isSide low && (high ++ low).countP isGroup ≤ 7
  | _ => false

/-- Whether a text is an address of the sixth version, which may name a scope after a percent
sign. -/
def isVersionSix (text : List Char) : Bool :=
  let (address, scope) := cutAt '%' text
  !text.contains '/' &&
    (match scope with
      | none => true
      | some name => !name.isEmpty && !name.contains '%') &&
    (match addressParts address with
      | none => false
      | some parts => parts.length ≤ 9 && arePartsOfAddress parts)

/-- Whether a text announces a later version of the protocol in the prescribed form: a version
in hexadecimal, a dot, and at least one character more on the same line. -/
def isLaterVersion (text : List Char) : Bool :=
  match text with
  | 'v' :: rest =>
      let version := rest.takeWhile fun c => (hexValue? c).isSome
      match rest.dropWhile fun c => (hexValue? c).isSome with
      | '.' :: name => !version.isEmpty && !name.isEmpty && !name.contains '\n'
      | _ => false
  | _ => false

end SymbolJump.Uri
