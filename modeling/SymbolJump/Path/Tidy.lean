/-
# Tidy paths

The tidy form of a path drops empty components and single dots but looks at nothing else: a
double dot stays, since the component before it may be a link. The empty path is the current
folder.
-/
import SymbolJump.Text.Pieces

namespace SymbolJump.Path

open Text

/-- The components of a path between its slashes, without empty ones and single dots. -/
def components (path : String) : List String :=
  ((splitOn '/' path.toList).map String.ofList).filter fun name => name ≠ "" ∧ name ≠ "."

/-- The slashes that a tidy path starts with: two when the path starts with exactly two, one
when it starts with any other number, none when it is relative. -/
def anchor (path : String) : String :=
  match path.toList with
  | '/' :: '/' :: '/' :: _ => "/"
  | '/' :: '/' :: _ => "//"
  | '/' :: _ => "/"
  | _ => ""

/-- Whether a path starts at the root. -/
def isAbsolute (path : String) : Bool :=
  anchor path != ""

/-- The path of components behind an anchor. -/
def assemble (anchor : String) (components : List String) : String :=
  if anchor = "" ∧ components = [] then "." else anchor ++ joinWith "/" components

/-- The tidy form of a path. -/
def tidy (path : String) : String :=
  assemble (anchor path) (components path)

/-- The last component of a path; empty when it has none. -/
def baseName (path : String) : String :=
  (components path).getLastD ""

/-- The folder that holds a path. -/
def parent (path : String) : String :=
  assemble (anchor path) (components path).dropLast

/-- A path extended by a relative one. -/
def join (folder relative : String) : String :=
  assemble (anchor folder) (components folder ++ components relative)

/-- The extension of the last component of a path, with its dot: the text from the last dot on,
unless only dots stand before it. -/
def extension (path : String) : String :=
  let name := afterLast '/' path.toList
  let stem := name.dropWhile (· = '.')
  if stem.contains '.' then String.ofList ('.' :: afterLast '.' stem) else ""

end SymbolJump.Path
