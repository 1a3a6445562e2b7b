/-
# Paths without links

The path without links that a path leads to is spelled component by component, and components
that are missing are taken as they stand. At a link the path goes on from where the link leads,
which is found once for each link. A link that is met while it is being followed leads back to
itself: it then stands as it is spelled, and so does all that was still to come, which starts
anew where it starts with a slash.
-/
import SymbolJump.Files.Walk
import SymbolJump.Path.Lexical

namespace SymbolJump.Files

open Text

/-- A spelled path extended by another. One that starts with a slash stands alone. -/
def extended (path rest : String) : String :=
  if rest.toList.head? = some '/' then rest
  else if path = "" ∨ path.toList.getLast? = some '/' then path ++ rest
  else path ++ "/" ++ rest

/-- The folder of a spelled path, without slashes at its end unless they are all of it. -/
def spelledFolder (path : String) : String :=
  let folder := throughLast '/' path.toList
  String.ofList (if folder.all (· = '/') then folder else dropTrailing (· = '/') folder)

/-- A spelled path one folder up. Above a relative path of no component, double dots add up. -/
def spelledAbove (path : String) : String :=
  if path = "" then ".."
  else if afterLast '/' path.toList = ['.', '.'] then
    extended (extended (spelledFolder path) "..") ".."
  else spelledFolder path

/-- The links met so far by their own paths, each with the path that it leads to; with none as
long as it is being followed. -/
abbrev KnownLinks := List (String × Option String)

/-- Where following a spelled path came to. -/
structure Followed where
  path : String
  /-- Whether no link led back to itself. -/
  straight : Bool
  known : KnownLinks

/-- The target of the link that a path names itself. -/
def linkTarget? (root : Node) (folder : Place) (path : String) : Option String :=
  match walk root folder path .entry with
  | .found place =>
      match root.at? place with
      | some (.link target) => some target
      | _ => none
  | _ => none

/-- Follow components from a path without links. How the target of a link is followed from the
folder of the link is given. -/
def followBy (root : Node) (folder : Place)
    (enter : KnownLinks → (path target : String) → Followed) :
    KnownLinks → (path : String) → List String → Followed
  | known, path, [] => ⟨path, true, known⟩
  | known, path, name :: rest =>
      if name = "" ∨ name = "." then followBy root folder enter known path rest
      else if name = ".." then followBy root folder enter known (spelledAbove path) rest
      else
        let own := extended path name
        match linkTarget? root folder own, known.lookup own with
        | none, _ => followBy root folder enter known own rest
        | some _, some (some path) => followBy root folder enter known path rest
        | some _, some none => ⟨extended own (joinWith "/" rest), false, known⟩
        | some target, none =>
            let inner := enter ((own, none) :: known) path target
            if inner.straight then
              followBy root folder enter ((own, some inner.path) :: inner.known) inner.path rest
            else ⟨extended inner.path (joinWith "/" rest), false, inner.known⟩

/-- Follow a spelled path from a path without links, through links inside links up to a depth. -/
def follow (root : Node) (folder : Place) :
    (depth : Nat) → KnownLinks → (path target : String) → Followed
  | 0, known, path, target => ⟨extended path target, false, known⟩
  | depth + 1, known, path, target =>
      followBy root folder (follow root folder depth) known
        (if Path.isAbsolute target then "/" else path) (rawComponents target)

/-- The path of a place. -/
def pathOf (place : Place) : String :=
  "/" ++ joinWith "/" place

/-- The depth of links inside links that are followed. -/
def followDepth : Nat := 1000

/-- The path without links that a path leads to from a folder, in its normal form. -/
def spelledOut (root : Node) (folder : Place) (path : String) : String :=
  let followed := (follow root folder followDepth [] "" path).path
  let whole := (extended (pathOf folder) followed).toList
  let names := (Path.normalComponents whole).map String.ofList
  String.ofList (List.replicate (Path.leadingSlashes whole) '/') ++ joinWith "/" names

end SymbolJump.Files
