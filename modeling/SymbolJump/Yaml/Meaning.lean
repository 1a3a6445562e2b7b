/-
# What a document means

The scalars of a document mean values, and with them its collections do. The scalars are looked
at level by level, and the first without a meaning decides the problem. A collection is complete
when all that it holds is; one that holds itself never is.
-/
import SymbolJump.Value.Document
import SymbolJump.Yaml.Document
import SymbolJump.Yaml.Word

namespace SymbolJump.Yaml

namespace Node

/-- What a scalar means. A collection means no scalar. -/
def scalarValue : Node → Except Problem Scalar
  | .scalar text plain => if plain then wordValue text else .ok (.text (String.ofList text))
  | .collection _ => .error .badKey

/-- What a part means as a key, which must be a scalar. -/
def keyScalar : Node → Except Problem Scalar
  | .scalar text plain => if plain then keyValue text else .ok (.text (String.ofList text))
  | .collection _ => .error .badKey

/-- The problem of a part that is not a key; collections have theirs later. -/
def problem? : Node → Option Problem
  | .collection _ => none
  | node =>
      match node.scalarValue with
      | .ok _ => none
      | .error problem => some problem

/-- The problem of a part that is a key. -/
def keyProblem? (node : Node) : Option Problem :=
  match node.keyScalar with
  | .ok _ => none
  | .error problem => some problem

end Node

/-- The first problem of the scalars in a collection. -/
def Collection.problem? : Collection → Option Problem
  | .list items => items.findSome? Node.problem?
  | .mapping fields => fields.findSome? fun (key, value) => key.keyProblem? <|> value.problem?

/-- The first problem of the scalars of a document. -/
def Graph.problem? (graph : Graph) : Option Problem :=
  graph.root.problem? <|> graph.byLevel.findSome? Collection.problem?

/-- The scalar that a part without a problem means. -/
def Node.scalarOr (node : Node) (other : Scalar) : Scalar :=
  node.scalarValue.toOption.getD other

/-- The key that a part without a problem means. -/
def Node.key (node : Node) : Scalar :=
  node.keyScalar.toOption.getD .null

/-- The value of a collection whose parts have the given values; nothing when one of them has
none. -/
def Collection.value? (valueOf : Node → Option Value) : Collection → Option Value
  | .list items => (items.mapM valueOf).map Value.list
  | .mapping fields => do
      let fields ← fields.mapM fun (key, value) => (valueOf value).map fun value => (key.key, value)
      return .object (Mapping.ofFields fields)

/-- The values of collections that are complete when those inside them are, with one more. -/
def addTree (graph : Graph) (trees : Array (Option Value)) (number : Nat) :
    Array (Option Value) :=
  let valueOf (node : Node) : Option Value :=
    match node with
    | .collection number => trees[number]?.join
    | node => some (.scalar (node.scalarOr .null))
  trees.setIfInBounds number ((graph.collectionAt number).value? valueOf)

/-- The part of a document that a node is. A collection without a complete value is a knot. -/
def Node.part (trees : Array (Option Value)) : Node → Part
  | .collection number =>
      match trees[number]?.join with
      | some tree => .value tree
      | none => .knot number
  | node => .value (.scalar (node.scalarOr .null))

/-- The knot that a collection is. -/
def Collection.knot (trees : Array (Option Value)) : Collection → Knot
  | .list items => .list (items.map (Node.part trees))
  | .mapping fields => .object (fields.map fun (key, value) => (key.key, value.part trees))

/-- The document of a content. -/
def documentOf (graph : Graph) : Except Problem Document :=
  match graph.problem? with
  | some problem => .error problem
  | none =>
      let none := Array.replicate graph.collections.size Option.none
      let trees := graph.ended.foldl (addTree graph) none
      .ok { root := graph.root.part trees, knots := graph.collections.map (Collection.knot trees) }

/-- The document that a text writes. -/
def read (text : String) : Except Problem Document := do
  documentOf (← Graph.read text)

end SymbolJump.Yaml
