/-
# Open roots

A candidate is preferred by the root that its path lies under. Being under a root looks at the
text alone: the root without its trailing separators must be the path or be followed by a
separator in it. Nothing is left of a root made of separators; it stands for the whole file
system.
-/
import SymbolJump.Text.Pieces

namespace SymbolJump.Path

open Text

/-- Whether a character separates the components of a path, in either spelling. -/
def isSeparator (c : Char) : Bool :=
  c == '/' || c == '\\'

/-- Whether a path lies under a root, on lists of characters. -/
def isUnderChars (path root : List Char) : Bool :=
  let stem := dropTrailing isSeparator root
  if stem.isEmpty then
    match path with
    | [] => false
    | c :: _ => isSeparator c
  else path == stem || (stem ++ ['/']).isPrefixOf path

/-- Whether a path lies under a root. -/
def isUnder (path root : String) : Bool :=
  isUnderChars path.toList root.toList

end SymbolJump.Path
