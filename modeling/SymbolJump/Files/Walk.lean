/-
# Following paths

A path is followed from a folder component by component. A link on the way is replaced by the
path that it names; a link at the end is followed or not, as asked. Forty links may be followed,
so that a path which leads back to itself comes to an end, and names and paths have a greatest
length.
-/
import SymbolJump.Files.Node
import SymbolJump.Fault
import SymbolJump.Path.Tidy

namespace SymbolJump.Files

open Text

/-- Where following a path came to. -/
inductive Arrival
  /-- At an entry. -/
  | found (place : Place)
  /-- At a name that its folder does not have, with the components after it. -/
  | absent (folder : Place) (name : String) (rest : List String)
  /-- At a link that must be followed, with the components after it. -/
  | link (folder : Place) (target : String) (rest : List String)
  | trouble (trouble : FileTrouble)

/-- All components of a path between its slashes. -/
def rawComponents (path : String) : List String :=
  (splitOn '/' path.toList).map String.ofList

/-- What a path is followed for. -/
inductive Aim
  /-- The entry that the path names itself, when its last component is a link too. -/
  | entry
  /-- What the path leads to. -/
  | target
  /-- A file that is created if it is missing, so that no slash may stand behind its name. -/
  | creation
deriving DecidableEq, Repr

/-- The most bytes of a component. -/
def nameLimit : Nat := 255

/-- Follow components from a place up to the first link. -/
def advance (root : Node) (aim : Aim) (place : Place) : List String → Arrival
  | [] => .found place
  | name :: rest =>
      match root.at? place with
      | some (.folder entries) =>
          if name = "" ∨ name = "." then advance root aim place rest
          else if name = ".." then advance root aim place.dropLast rest
          else if aim = .creation ∧ !rest.isEmpty ∧ rest.all (· = "") then .trouble .isFolder
          else if nameLimit < name.utf8ByteSize then .trouble .nameTooLong
          else match entries.lookup name with
            | none => .absent place name rest
            | some (.link target) =>
                if rest.isEmpty ∧ aim = .entry then .found (place ++ [name])
                else .link place target rest
            | some _ => advance root aim (place ++ [name]) rest
      | _ => .trouble .notFolder

/-- Follow components from a place, through at most the given number of links. -/
def walkFrom (root : Node) (aim : Aim) : (links : Nat) → Place → List String → Arrival
  | links, place, rest =>
      match advance root aim place rest with
      | .link folder target rest =>
          match links with
          | 0 => .trouble .tooManyLinks
          | links + 1 =>
              walkFrom root aim links (if Path.isAbsolute target then [] else folder)
                (rawComponents target ++ rest)
      | arrival => arrival

/-- The links that one path may lead through. -/
def linkLimit : Nat := 40

/-- The most bytes of a path. -/
def pathLimit : Nat := 4095

/-- Follow a path from a folder. The empty path names nothing. -/
def walk (root : Node) (folder : Place) (path : String) (aim : Aim) : Arrival :=
  if path = "" then .absent folder "" []
  else if pathLimit < path.utf8ByteSize then .trouble .nameTooLong
  else walkFrom root aim linkLimit (if Path.isAbsolute path then [] else folder)
    (rawComponents path)

/-- The place of the entry that a path leads to, or the trouble on the way. -/
def resolve (root : Node) (folder : Place) (path : String) : Except FileTrouble Place :=
  match walk root folder path .target with
  | .found place => .ok place
  | .absent _ _ _ => .error .missing
  | .link _ _ _ => .error .tooManyLinks
  | .trouble trouble => .error trouble

/-- Whether a path leads to a folder. -/
def leadsToFolder (root : Node) (folder : Place) (path : String) : Bool :=
  match resolve root folder path with
  | .ok place => ((root.at? place).map Node.isFolder).getD false
  | .error _ => false

end SymbolJump.Files
