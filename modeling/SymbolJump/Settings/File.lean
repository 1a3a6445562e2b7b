/-
# Configuration files

A configuration file is a document with a mapping of settings, laid over the default
configuration. A file that is missing changes nothing, and so does a document that says
nothing; any other document than a mapping is refused. How a document is parsed is not laid down
here: a parser is given, which may find a problem of the language or fail in another way.
-/
import SymbolJump.Files.Disk
import SymbolJump.Settings.Config
import SymbolJump.Settings.Defaults
import SymbolJump.Settings.Overlay
import SymbolJump.Value.Document

namespace SymbolJump.Settings

open Files

/-- Why a text is not parsed. -/
inductive ParseError
  /-- The text is no document of the language. -/
  | problem (detail : String)
  /-- A failure that is no matter of the language. -/
  | fault (cause : Fault)

/-- A parser of documents. A text of a document that holds half a character comes with the
replacement character there. -/
abbrev Parser := String → Except ParseError Document

/-- A configuration laid over the default one. -/
def overDefaults (config : Mapping) : Except Fault Mapping :=
  match overlay? defaultConfig config with
  | some fields => .ok fields
  | none => .error (.misfit .wrongType)

/-- The settings whose items are looked at one by one. -/
def listKeys : List Scalar := ["symbol_sort_priority", detectorsKey]

/-- The configuration in the document of a file, over the default one. -/
def configOfDocument (path : String) (document : Document) : Except Fault Mapping :=
  match document.fields? listKeys.contains with
  | some config => overDefaults config
  | none => if document.rootValue.isTruthy then refuse (.notMapping path) else overDefaults []

/-- How a file that is not parsed fails. -/
def ParseError.toFault (path : String) : ParseError → Fault
  | problem detail => .request (.badConfig (.invalidDocument path detail))
  | fault cause => cause

variable (parse : Parser)

/-- The configuration of a file, over the default one. -/
def configOfFile (disk : Disk) (path : Option String) : Except Fault Mapping :=
  match path with
  | none | some "" => .ok defaultConfig
  | some path => do
      if ← disk.exists? path then
        match parse (← disk.readText path) with
        | .error error => .error (error.toFault (Path.tidy path))
        | .ok document => configOfDocument (Path.tidy path) document
      else return defaultConfig

/-- The settings of a file. -/
def ofFile (disk : Disk) (path : Option String) : Except Fault Settings :=
  configOfFile parse disk path >>= ofConfig

end SymbolJump.Settings
