/-
# Requests to open a symbol

A request names a symbol, the project that holds it, and perhaps the kind of symbol meant. It
arrives as the query of a URI. Some launchers encode the query a second time, so it is decoded
as a whole before it is cut into fields and each field is decoded; when a field is given twice
the last one counts, and an empty one counts as absent.
-/
import SymbolJump.Text.Percent
import SymbolJump.Uri.Basic

namespace SymbolJump

open Text

/-- What a request asks for. Any part may be missing. -/
structure OpenRequest where
  symbol : Option String
  project : Option String
  kind : Option String
deriving DecidableEq

namespace OpenRequest

/-- A text of a form: a plus sign stands for a blank, the rest is percent-encoded. -/
def decodeField (text : List Char) : String :=
  String.ofList (Percent.decode (text.map fun c => if c = '+' then ' ' else c))

/-- The key and the value of one field. A field without an equals sign has an empty value. -/
def decodePair (piece : List Char) : String × String :=
  let (key, value) := cutAt '=' piece
  (decodeField key, decodeField (value.getD []))

/-- The fields of a query, in order. Nothing between two separators is no field. -/
def fields (query : List Char) : List (String × String) :=
  ((splitOn '&' query).filter fun piece => !piece.isEmpty).map decodePair

/-- The last value of a field, unless it is empty. -/
def field? (fields : List (String × String)) (key : String) : Option String :=
  match fields.reverse.lookup key with
  | some "" | none => none
  | some value => some value

/-- The request in a query. -/
def ofQuery (query : List Char) : OpenRequest :=
  let given := fields (Percent.decode query)
  { symbol := field? given "symbol"
    project := field? given "cwd"
    kind := field? given "kind" }

/-- The request in a URI. -/
def ofUri (uri : String) : Except AuthorityError OpenRequest :=
  (Uri.split uri).map fun parts => ofQuery parts.query

end OpenRequest

end SymbolJump
