/-
# Language detectors

A detector recognises a project language by marker files and finds a source file of it by a
pattern. Its parts are kept as the configuration gives them; the pattern is only known to be
something. From a pattern of the common form the extensions of the language can be read off.
-/
import SymbolJump.Fault
import SymbolJump.Glob.Braces
import SymbolJump.Path.Tidy
import SymbolJump.Text.Blank

namespace SymbolJump

open Text

/-- How to recognise a project language and find one of its source files. -/
structure Detector where
  language : Value := .null
  markers : List Value := []
  pattern : Value
  excluded : Value := .null
deriving DecidableEq

namespace Detector

/-- The markers in a value: the items of a list or a set, the characters of a text, the numbers of
bytes, the keys of an object. -/
def markersOf : Value → Except Misfit (List Value)
  | .list items => .ok items
  | .set items => .ok (items.map .scalar)
  | .text value => .ok (value.toList.map fun c => .text (String.singleton c))
  | .scalar (.bytes value) => .ok (value.map fun byte => .int byte.toNat)
  | .object fields => .ok (fields.map fun field => .scalar field.1)
  | _ => .error .wrongType

/-- The options of a text that is one group of alternatives. -/
def wholeGroup? (text : List Char) : Option (List (List Char)) :=
  match Glob.firstGroup? text with
  | some ([], inside, []) => some (splitOn ',' inside)
  | _ => none

/-- The extensions that a pattern of the form `*.x` or `*.{x,y}`, in any folder, selects. Any
other pattern selects none that could be known. -/
def extensionsOfPattern (pattern : List Char) : List String :=
  match afterLast '/' pattern with
  | '*' :: '.' :: suffix =>
      match wholeGroup? suffix with
      | some options =>
          let trimmed := options.map fun option => trimBoth isBlank option
          (trimmed.filter fun option => !option.isEmpty).map fun option =>
            String.ofList ('.' :: option)
      | none =>
          if suffix.any fun c => c == '*' || c == '?' || c == '[' || c == '\x7b' then []
          else [String.ofList ('.' :: suffix)]
  | _ => []

/-- The file extensions that a detector stands for, each once. Bytes can be cut like a text, but not
by one. -/
def extensions (detector : Detector) : Except Misfit (List String) :=
  match detector.pattern with
  | .text pattern => .ok (extensionsOfPattern pattern.toList).eraseDups
  | .scalar (.bytes _) => .error .wrongType
  | other => .error (.noOperation other.typeName "rsplit")

/-- Whether an open document belongs to one of the detectors, by its extension. -/
def anyOpen (documents : List String) (detectors : List Detector) : Except Misfit Bool := do
  let known ← detectors.mapM extensions
  return documents.any fun path => known.any fun extensions =>
    extensions.contains (Path.extension path)

/-- Whether a detector is for a language. -/
def isFor (detector : Detector) (language : Value) : Bool :=
  detector.language.equals language

end Detector

end SymbolJump
