/-
# Trees of files

A tree of files holds bytes at its leaves, and links that name another path. The places in a
tree are lists of names from its root. Nothing here follows a link.
-/
namespace SymbolJump.Files

/-- An entry of a file system. -/
inductive Node
  | file (bytes : List UInt8)
  | folder (entries : List (String × Node))
  | link (target : String)

instance : Inhabited Node := ⟨.folder []⟩

/-- The names from the root of a tree to one of its entries. -/
abbrev Place := List String

namespace Node

/-- Whether an entry is a folder. -/
def isFolder : Node → Bool
  | .folder _ => true
  | _ => false

/-- The entry at a place. -/
def at? : Node → Place → Option Node
  | node, [] => some node
  | .folder entries, name :: place => (entries.lookup name).bind (at? · place)
  | _, _ :: _ => none

/-- The entries of a folder with one of them changed: to another, or to nothing. -/
def alterEntry (name : String) (change : Option Node → Option Node) :
    List (String × Node) → List (String × Node)
  | [] =>
      match change none with
      | some node => [(name, node)]
      | none => []
  | (other, node) :: entries =>
      if other = name then
        match change (some node) with
        | some changed => (name, changed) :: entries
        | none => entries
      else (other, node) :: alterEntry name change entries

/-- The tree with the entry at a place changed: to another, or to nothing. Folders on the way
are created; nothing changes when another entry stands on the way. -/
def alter (change : Option Node → Option Node) : Place → Node → Node
  | [], node => (change (some node)).getD node
  | [name], .folder entries => .folder (alterEntry name change entries)
  | name :: place, .folder entries =>
      let inner (node : Option Node) := some (alter change place (node.getD (.folder [])))
      .folder (alterEntry name inner entries)
  | _ :: _, node => node

/-- The tree with an entry put at a place. -/
def put (tree : Node) (place : Place) (entry : Node) : Node :=
  alter (fun _ => some entry) place tree

/-- The tree without the entry at a place. -/
def remove (tree : Node) (place : Place) : Node :=
  alter (fun _ => none) place tree

end Node

end SymbolJump.Files
