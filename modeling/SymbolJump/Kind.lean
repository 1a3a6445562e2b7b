/-
# Kinds of symbols

The vocabulary of kinds is closed. Every kind has a name and a code, its place in the vocabulary
counted from zero. A user may order kinds by priority, and may hint at the kind wanted; both are
given by name and refused when a name is not in the vocabulary.
-/
import SymbolJump.Fault

namespace SymbolJump

/-- The syntactic category of a symbol, in the order of the codes. -/
inductive Kind
  | file
  | moduleUnit
  | namespaceUnit
  | package
  | classType
  | method
  | property
  | field
  | constructor
  | enumeration
  | interface
  | function
  | variableName
  | constant
  | string
  | number
  | boolean
  | array
  | object
  | key
  | null
  | enumMember
  | struct
  | event
  | operator
  | typeParameter
deriving DecidableEq, Repr

namespace Kind

/-- All kinds, by code. -/
def all : List Kind :=
  [file, moduleUnit, namespaceUnit, package, classType, method, property, field, constructor,
   enumeration, interface, function, variableName, constant, string, number, boolean, array,
   object, key, null, enumMember, struct, event, operator, typeParameter]

/-- The code of a kind. -/
def code (kind : Kind) : Nat :=
  kind.ctorIdx

/-- The kind with a code. -/
def ofCode? (code : Nat) : Option Kind :=
  all[code]?

@[simp]
theorem ofCode?_code (kind : Kind) : ofCode? kind.code = some kind := by
  cases kind <;> rfl

/-- The name of a kind. -/
def name : Kind → String
  | file => "File"
  | moduleUnit => "Module"
  | namespaceUnit => "Namespace"
  | package => "Package"
  | classType => "Class"
  | method => "Method"
  | property => "Property"
  | field => "Field"
  | constructor => "Constructor"
  | enumeration => "Enum"
  | interface => "Interface"
  | function => "Function"
  | variableName => "Variable"
  | constant => "Constant"
  | string => "String"
  | number => "Number"
  | boolean => "Boolean"
  | array => "Array"
  | object => "Object"
  | key => "Key"
  | null => "Null"
  | enumMember => "EnumMember"
  | struct => "Struct"
  | event => "Event"
  | operator => "Operator"
  | typeParameter => "TypeParameter"

/-- The kind with a name. -/
def ofName? (name : String) : Option Kind :=
  all.find? fun kind => kind.name == name

@[simp]
theorem ofName?_name (kind : Kind) : ofName? kind.name = some kind := by
  cases kind <;> decide

/-- The kinds that a hint admits. Languages disagree on whether what is called on a type is a
function or a method, so a hint at functions admits methods and constructors too; every other
hint admits its own kind alone. -/
def admittedBy : Kind → List Kind
  | function => [method, constructor, function]
  | kind => [kind]

/-- The kinds that an optional hint admits, where nothing means every kind: no hint and an empty
one admit all. A name outside the vocabulary is an error. -/
def ofHint (hint : Option String) : Except RequestError (Option (List Kind)) :=
  match hint with
  | none | some "" => .ok none
  | some name =>
      match ofName? name with
      | some kind => .ok (some kind.admittedBy)
      | none => .error (.unknownHint name)

/-- Whether a code belongs to an admitted kind. -/
def isAdmitted (admitted : Option (List Kind)) (code : Int) : Bool :=
  match admitted with
  | none => true
  | some kinds => kinds.any fun kind => (kind.code : Int) == code

end Kind

/-- Kinds in the order in which candidates are preferred, each at most once. -/
abbrev Priority := List Kind

namespace Priority

/-- The priority with one more kind at its end; a kind that is there keeps its place. -/
def add (priority : Priority) (kind : Kind) : Priority :=
  if priority.contains kind then priority else priority ++ [kind]

/-- The priority that a list of names describes, or the error of the first name outside the
vocabulary. -/
def ofNames (names : List String) : Except RequestError Priority :=
  names.foldlM (fun priority name =>
    match Kind.ofName? name with
    | some kind => .ok (add priority kind)
    | none => .error (.unknownPriorityKind name)) []

/-- The place of a kind, counted from zero; the length of the list for a kind that is not
there, so that such kinds come last. -/
def rank (priority : Priority) (kind : Kind) : Nat :=
  priority.idxOf kind

theorem rank_lt_length_iff (priority : Priority) (kind : Kind) :
    rank priority kind < priority.length ↔ kind ∈ priority :=
  List.idxOf_lt_length_iff

end Priority

end SymbolJump
