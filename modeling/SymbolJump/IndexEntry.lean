/-
# Entries of an index snapshot

A snapshot of the symbol index is a list of objects written by whatever exports it. An entry
names a location by URI, counts kinds from one, and may leave out the place inside the file.
Its name and place are taken over as they stand; what has the wrong shape is refused, in a
fixed order: the entry, its location, the URI, the range, the name, the kind, the start. The texts
of an entry may hold halves of characters, which are replaced in the candidate that it becomes.
-/
import SymbolJump.Candidate
import SymbolJump.Text.Percent
import SymbolJump.Uri.Basic

namespace SymbolJump

open Text

/-- An index entry whose name has not been looked at. -/
structure IndexEntry where
  name : Json Wide
  kind : Kind
  path : List Glyph
  line : Json Wide
  column : Json Wide
  container : Json Wide
deriving DecidableEq

namespace IndexEntry

/-- The path that a URI of an index names: the decoded path of a file URI, and any other text as
it stands. -/
def pathOfUri (uri : Wide) : Except Fault (List Glyph) :=
  let glyphs := glyphs uri
  if "file:".toList.isPrefixOf (glyphs.map Glyph.char) then
    match Uri.split (mended glyphs) with
    | .ok _ => .ok (Percent.decodeGlyphs (Uri.filePath glyphs))
    | .error error => .error (.refusal (.authority error))
  else .ok glyphs

/-- The fields of a value that must be an object, where another value lacks the operation that
looks a field up. -/
def fieldsOf (value : Json Wide) : Except Fault (Fields Wide) :=
  match value with
  | .object fields => .ok fields
  | value => .error (.misfit (.noOperation value.typeName "get"))

/-- The text in a value that must be one. -/
def uriText (value : Json Wide) : Except Fault Wide :=
  match value with
  | .text text => .ok text
  | value => .error (.misfit (.noOperation value.typeName "startswith"))

/-- The value of a field that must be there. -/
def required (fields : Fields Wide) (key : Wide) : Except Fault (Json Wide) :=
  match fields.get? key with
  | some value => .ok value
  | none => .error (.misfit (.missingField (mended (glyphs key))))

/-- The kind that a number counted from zero names. -/
def kindOfCode? (code : Json Wide) : Option Kind :=
  match code.asInt? with
  | some (.ofNat value) => Kind.ofCode? value
  | _ => none

/-- The kind with a number of the index, which counts from one. -/
def kindOf (number : Json Wide) : Except Fault Kind :=
  match number.addInt? (-1) with
  | none => .error (.misfit .wrongType)
  | some code =>
      match kindOfCode? code with
      | some kind => .ok kind
      | none => .error (.refusal (if code.isShowable then .noKind code else .longNumber))

/-- The entry in a value of a snapshot. -/
def ofJson (value : Json Wide) : Except Fault IndexEntry :=
  match value with
  | .object entry =>
      match Fields.getOrNull entry "location" with
      | .object location => do
          let uri ← uriText (Fields.getOr location "uri" (.text ""))
          let path ← pathOfUri uri
          let range ← fieldsOf (Fields.getOr location "range" (.object []))
          let name ← required entry "name"
          let kind ← required entry "kind" >>= kindOf
          let start ← fieldsOf (range.getOr "start" (.object []))
          return {
            name
            kind
            path
            line := start.getOr "line" (.int 0)
            column := start.getOr "character" (.int 0)
            container := Fields.getOrNull entry "containerName" }
      | other => .error (.refusal (.locationNotObject other))
  | other => .error (.refusal (.entryNotObject other))

/-- The candidate that an entry is when its name is a text. -/
def toCandidate? (entry : IndexEntry) : Option Candidate :=
  entry.name.asText?.map fun name => {
    name := mended (glyphs name)
    kind := entry.kind
    location := ⟨mended entry.path, entry.line.mended, entry.column.mended⟩
    container := entry.container.mended }

end IndexEntry

end SymbolJump
