/-
# What a document says

A document consists of scalars and collections: lists and mappings. A collection may be used in
several places, inside itself too, so collections are numbered and refer to each other by number.
What the scalars mean is not looked at here.
-/
namespace SymbolJump.Yaml

/-- A part of a document: a scalar, plain or not, or the collection of a number. -/
inductive Node
  | scalar (text : List Char) (plain : Bool)
  | collection (number : Nat)
deriving DecidableEq, Repr

/-- A list, or a mapping with its keys and values as they come. -/
inductive Collection
  | list (items : List Node)
  | mapping (fields : List (Node × Node))
deriving DecidableEq, Repr

instance : Inhabited Collection := ⟨.list []⟩

namespace Collection

/-- Whether a collection is a list. -/
def isList : Collection → Bool
  | list _ => true
  | mapping _ => false

/-- The parts of a collection in the order in which they are looked at, each key before its
value. -/
def parts : Collection → List Node
  | list items => items
  | mapping fields => fields.flatMap fun (key, value) => [key, value]

end Collection

/-- The content of a document. -/
structure Graph where
  root : Node
  /-- The collections by number. -/
  collections : Array Collection := #[]
  /-- The numbers of the collections in the order in which they ended, inner ones first. -/
  ended : List Nat := []

namespace Graph

/-- The collection of a number. -/
def collectionAt (graph : Graph) (number : Nat) : Collection :=
  graph.collections[number]?.getD default

/-- The numbers of the collections in a list of nodes that are not among the given ones, each
once. -/
def fresh (known : List Nat) : List Node → List Nat
  | [] => []
  | .scalar _ _ :: nodes => fresh known nodes
  | .collection number :: nodes =>
      if known.contains number then fresh known nodes
      else number :: fresh (number :: known) nodes

/-- The numbers of collections level by level: those that are waiting, then those found in
them. -/
def levels (graph : Graph) : (fuel : Nat) → (waiting known : List Nat) → List Nat
  | 0, _, _ => []
  | _ + 1, [], _ => []
  | fuel + 1, number :: waiting, known =>
      let found := fresh known (graph.collectionAt number).parts
      number :: levels graph fuel (waiting ++ found) (found ++ known)

/-- The collections of a document level by level, the outermost first. Each has its place
once. -/
def byLevel (graph : Graph) : List Collection :=
  let start := fresh [] [graph.root]
  (graph.levels graph.collections.size start start).map graph.collectionAt

end Graph

end SymbolJump.Yaml
