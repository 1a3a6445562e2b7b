/-
# Searching folders

The search for files walks a folder depth first: the matching files of a folder in the order of
their names, then everything in its folders in the order of theirs. Patterns see paths relative
to the folder searched. Links to folders are not entered and are no files; any other link is a
file. A folder whose path, with a slash after it, is excluded is not entered at all. A limit is
looked at after each path found, and ends the search where it stands.
-/
import SymbolJump.Files.Disk
import SymbolJump.Glob.Pattern

namespace SymbolJump.Files

/-- Which entries a search looks at, by their paths relative to the folder searched. -/
structure Filter where
  enters : String → Bool
  keeps : String → Bool

namespace Filter

/-- The filter of everything that one pattern does not leave out. A folder is excluded by its
path with a slash after it. -/
def allBut (excluded : Option String) : Filter :=
  let lets (path : String) : Bool :=
    match excluded with
    | some pattern => !Glob.isMatch pattern path
    | none => true
  { enters := fun path => lets (path ++ "/")
    keeps := lets }

/-- The filter of a pattern for the files wanted and one for what is left out. -/
def ofPatterns (wanted : String) (excluded : Option String) : Filter :=
  let filter := allBut excluded
  { filter with keeps := fun path => filter.keeps path && Glob.isMatch wanted path }

end Filter

/-- Pairs in the order of their names. -/
def sortByName {α : Type} (entries : List (String × α)) : List (String × α) :=
  entries.mergeSort fun a b => decide (a.1 ≤ b.1)

/-- A scan under way. It goes on with the paths found so far, or it has stopped with them, and then
nothing more is looked at. -/
abbrev Scan := Except (Array String) (Array String)

namespace Scan

/-- The paths of a scan, whether it has stopped or not. -/
def paths : Scan → List String
  | .ok found | .error found => found.toList

/-- Whether as many paths were found as a limit asks for. -/
def isEnough (limit : Option Int) (found : Array String) : Bool :=
  match limit with
  | some count => decide (count ≤ found.size)
  | none => false

/-- Add a path to those found. The limit is looked at after it, so one below one lets the first path
through. -/
def add (limit : Option Int) (found : Array String) (path : String) : Scan :=
  let found := found.push path
  if isEnough limit found then throw found else return found

end Scan

/-- What an entry of a folder means to a scan. -/
inductive Visit
  /-- A file, or a link that is no link to a folder, to be looked at. -/
  | file (path : String)
  /-- A folder to be gone through. -/
  | folder (path : String) (through : Array String → Scan)
  | nothing

namespace Visit

/-- Look at a file: it is found if it is to be kept. -/
def look (filter : Filter) (limit : Option Int) (found : Array String) : Visit → Scan
  | file path => if filter.keeps path then Scan.add limit found path else return found
  | _ => return found

/-- Go through a folder if it is to be entered. -/
def enter (filter : Filter) (found : Array String) : Visit → Scan
  | folder path through => if filter.enters path then through found else return found
  | _ => return found

end Visit

mutual

/-- Scan an entry: look at the files in it, then go through its folders, both in the order of their
names. The path given is that of the entry with a slash after it, empty for the folder searched. -/
def scanNode (root : Node) (filter : Filter) (limit : Option Int) (place : Place)
    (path : String) : Node → Array String → Scan
  | .folder entries => fun found => do
      let visits := sortByName (visitsTo root filter limit place path entries)
      let found ← visits.foldlM (fun found visit => visit.2.look filter limit found) found
      visits.foldlM (fun found visit => visit.2.enter filter found) found
  | .file _ | .link _ => fun found => return found

/-- What each entry of a folder means to a scan. -/
def visitsTo (root : Node) (filter : Filter) (limit : Option Int) (place : Place)
    (path : String) : List (String × Node) → List (String × Visit)
  | [] => []
  | (name, node) :: entries =>
      let own := path ++ name
      let visit :=
        match node with
        | .folder _ =>
            .folder own (scanNode root filter limit (place ++ [name]) (own ++ "/") node)
        | .file _ => .file own
        | .link _ => if leadsToFolder root place name then .nothing else .file own
      (name, visit) :: visitsTo root filter limit place path entries

end

namespace Disk

/-- Whether a path leads to a folder with entries. -/
def hasEntries (disk : Disk) (path : String) : Except Fault Bool :=
  (disk.locate? path).map fun place =>
    match place.bind disk.tree.at? with
    | some (.folder entries) => !entries.isEmpty
    | _ => false

/-- The paths that a filter finds under a root, in order, up to a limit. A root that is no folder
holds nothing. -/
def findBy (disk : Disk) (root : String) (filter : Filter) (limit : Option Int) :
    Except Fault (List String) :=
  (disk.locate? root).map fun place =>
    match place, place.bind disk.tree.at? with
    | some place, some node =>
        (scanNode disk.tree filter limit place "" node #[]).paths.map
          (Path.join (Path.tidy root))
    | _, _ => []

/-- The paths of the files under a root that match a pattern and no excluded one. -/
def find (disk : Disk) (root wanted : String) (excluded : Option String) (limit : Option Int) :
    Except Fault (List String) :=
  disk.findBy root (.ofPatterns wanted excluded) limit

end Disk

end SymbolJump.Files
