/-
# What can go wrong

Errors are causes. A `RequestError` is one that a user is told about in a single message; a
`Fault` is anything that ends a run early: a request error, a failure of the file system or the
editor, a value that an operation refuses, or a failure that a host reports under a name of its
own. Each cause has one wording, given here.
-/
import SymbolJump.Json.Depth
import SymbolJump.Text.Pieces
import SymbolJump.Text.Utf8
import SymbolJump.Value.Display

namespace SymbolJump

open Text

/-- Why a configuration is refused. -/
inductive ConfigError
  /-- The file is no document of the configuration language. -/
  | invalidDocument (path detail : String)
  /-- The document is no mapping. -/
  | notMapping (path : String)
  | unknownLogLevel (value : Value)
  | priorityNotList
  /-- The value of a setting is none of its choices. -/
  | noChoice (value : Value) (key : String) (choices : List String)
  /-- The value of a setting is no whole number, or below the least one allowed. -/
  | noCount (value : Value) (key : String) (least : Nat)
  | detectorsNotList
  | badDetector (value : Value)
  /-- A refusal that a host words itself. -/
  | reported (text : String)
deriving DecidableEq

/-- A failure of a request that its user is told about. -/
inductive RequestError
  /-- The order of kinds names no kind of the vocabulary. -/
  | unknownPriorityKind (name : String)
  /-- The request's hint names no kind of the vocabulary. -/
  | unknownHint (name : String)
  /-- The request lacks a symbol or a project. -/
  | missingParameters
  /-- The project is not open, and nothing may open it. -/
  | projectNotOpen (path : String)
  /-- The index or the picker failed. -/
  | indexFailed (text : String)
  | badConfig (cause : ConfigError)
  /-- A failure that a host words itself. -/
  | reported (text : String)
deriving DecidableEq

/-- What the file system refuses. -/
inductive FileTrouble
  | missing
  /-- The folder is in use. -/
  | busy
  | occupied
  | notFolder
  | isFolder
  | nameTooLong
  | tooManyLinks
deriving DecidableEq, Repr

/-- A failure of the file system at a path, or between two paths. -/
structure FileError where
  trouble : FileTrouble
  path : String
  target : Option String := none
deriving DecidableEq

/-- A value whose shape an operation cannot work with. -/
inductive Misfit
  /-- Values of the type have no such operation. -/
  | noOperation (typeName operation : String)
  | wrongType
  | missingField (key : String)
deriving DecidableEq

/-- Why the authority of a URI is refused. -/
inductive AuthorityError
  /-- One bracket without the other, or brackets around a part of the host. -/
  | misplacedBracket
  /-- The host is no address. -/
  | noAddress (text : String)
  /-- The host is an address that takes no brackets. -/
  | bracketedAddress
  /-- The host announces a later version and does not follow its form. -/
  | laterVersion
  /-- A character would turn into a separator when normalised. -/
  | disguisedSeparator (authority : String)
deriving DecidableEq

/-- A value of a suitable shape that an operation refuses. -/
inductive Refusal
  | entryNotObject (value : Json Wide)
  | locationNotObject (value : Json Wide)
  /-- No kind has the number. -/
  | noKind (number : Json Wide)
  | authority (error : AuthorityError)
  | noPolicy (text : String)
  | noCandidates
  /-- A text does not denote a number in a base. -/
  | noNumeral (base : Nat) (text : String)
  /-- A text has too many digits to be read as a number. -/
  | longNumeral (length : Nat)
  /-- A number has too many digits to be written. -/
  | longNumber
  /-- No character has the number. -/
  | noCharacter
  /-- A path without a last component. -/
  | namelessPath (path : String)
  /-- A path with a null character, which no file system takes. -/
  | nullInPath
deriving DecidableEq

/-- A number that is too large for what it is used for. -/
inductive Overflow
  /-- The number of a character. -/
  | characterNumber
  /-- A wait, counted in seconds. -/
  | wait
  /-- A place of a number that counts in sixties. -/
  | place
deriving DecidableEq, Repr

/-- What ends a run early. -/
inductive Fault
  | request (error : RequestError)
  | file (error : FileError)
  /-- The editor ended with a status other than zero. -/
  | editor (command : List String) (status : Nat)
  | encoding (malformed : Utf8.Malformed)
  | refusal (cause : Refusal)
  | overflow (cause : Overflow)
  /-- A value is nested too deeply. -/
  | nesting (cause : Json.Nesting)
  | misfit (cause : Misfit)
  /-- A path that leads back to itself through links. -/
  | linkLoop (path : String)
  /-- A failure that a host reports under a name of its own. -/
  | reported (name text : String)
deriving DecidableEq

/-- The wording of a refused configuration. -/
def ConfigError.message : ConfigError → String
  | invalidDocument path detail => path ++ ": invalid YAML: " ++ detail
  | notMapping path => path ++ ": top level must be a mapping of settings"
  | unknownLogLevel value => "Invalid value " ++ value.shown ++ " for log_level"
  | priorityNotList => "symbol_sort_priority must be a list"
  | noChoice value key choices =>
      "Invalid value " ++ value.shown ++ " for " ++ key ++ " (expected one of " ++
        joinWith ", " (choices.map quoted) ++ ")"
  | noCount value key least =>
      "Invalid value " ++ value.shown ++ " for " ++ key ++ " (expected an integer >= " ++
        toString least ++ ")"
  | detectorsNotList => "lang_detectors must be a list"
  | badDetector value => "Invalid lang detector: " ++ value.shown
  | reported text => text

/-- The wording of a name outside the vocabulary of kinds. -/
def unknownKindMessage (source name : String) : String :=
  "Invalid SymbolKind in " ++ source ++ ": \"" ++ name ++ "\""

/-- The wording of a failed request. -/
def RequestError.message : RequestError → String
  | unknownPriorityKind name => unknownKindMessage "symbolSortPriority" name
  | unknownHint name => unknownKindMessage "kind" name
  | missingParameters => "Symbol Opener: Missing required parameters (symbol, cwd)"
  | projectNotOpen path =>
      "Workspace \"" ++ path ++ "\" is not open. Please open it first."
  | indexFailed text => text
  | badConfig cause => cause.message
  | reported text => text

/-- The number and the wording of what the file system refuses. -/
def FileTrouble.message : FileTrouble → String
  | missing => "[Errno 2] No such file or directory"
  | busy => "[Errno 16] Device or resource busy"
  | occupied => "[Errno 17] File exists"
  | notFolder => "[Errno 20] Not a directory"
  | isFolder => "[Errno 21] Is a directory"
  | nameTooLong => "[Errno 36] File name too long"
  | tooManyLinks => "[Errno 40] Too many levels of symbolic links"

/-- The wording of a failure of the file system. -/
def FileError.message (error : FileError) : String :=
  let target :=
    match error.target with
    | some path => " -> " ++ quoted path
    | none => ""
  error.trouble.message ++ ": " ++ quoted error.path ++ target

/-- The wording of a misfit. -/
def Misfit.message : Misfit → String
  | noOperation typeName operation =>
      quoted typeName ++ " object has no attribute " ++ quoted operation
  | wrongType => "value of the wrong type"
  | missingField key => quoted key

/-- The wording of a refused authority. -/
def AuthorityError.message : AuthorityError → String
  | misplacedBracket => "Invalid IPv6 URL"
  | noAddress text => quoted text ++ " does not appear to be an IPv4 or IPv6 address"
  | bracketedAddress => "An IPv4 address cannot be in brackets"
  | laterVersion => "IPvFuture address is invalid"
  | disguisedSeparator authority =>
      "netloc '" ++ authority ++ "' contains invalid characters under NFKC normalization"

/-- The most characters of a text that a refusal to read a numeral shows. -/
def shownLimit : Nat := 200

/-- The wording of a refusal. -/
def Refusal.message : Refusal → String
  | entryNotObject value => "symbol entry is not an object: " ++ value.shown
  | locationNotObject value => "symbol location is not an object: " ++ value.shown
  | noKind number => number.worded ++ " is not a valid SymbolKind"
  | authority error => error.message
  | noPolicy text => quoted text ++ " is not a valid WorkspaceNotOpenBehavior"
  | noCandidates => "select_symbol requires at least one candidate"
  | noNumeral base text =>
      "invalid literal for int() with base " ++ toString base ++ ": " ++
        String.ofList ((quoted text).toList.take shownLimit)
  | longNumeral length =>
      "Exceeds the limit (4300 digits) for integer string conversion: value has " ++
        toString length ++ " digits; use sys.set_int_max_str_digits() to increase the limit"
  | longNumber =>
      "Exceeds the limit (4300 digits) for integer string conversion; use " ++
        "sys.set_int_max_str_digits() to increase the limit"
  | noCharacter => "chr() arg not in range(0x110000)"
  | namelessPath path => "PosixPath(" ++ quoted path ++ ") has an empty name"
  | nullInPath => "embedded null byte"

/-- The wording of an overflow. -/
def Overflow.message : Overflow → String
  | characterNumber => "Python int too large to convert to C int"
  | wait => "integer division result too large for a float"
  | place => "int too large to convert to float"

/-- The wording of a failure on a value that is nested too deeply. -/
def Json.Nesting.message (cause : Nesting) : String :=
  "maximum recursion depth exceeded while " ++
    match cause with
    | list => "decoding a JSON array from a unicode string"
    | object => "decoding a JSON object from a unicode string"
    | shown => "getting the repr of an object"

/-- The wording of what ends a run early. -/
def Fault.message : Fault → String
  | request error => error.message
  | file error => error.message
  | editor command status =>
      "Command '" ++ Json.shownTexts command ++ "' returned non-zero exit status " ++
        toString status ++ "."
  | encoding malformed => malformed.message
  | refusal cause => cause.message
  | overflow cause => cause.message
  | nesting cause => cause.message
  | misfit cause => cause.message
  | linkLoop path => "Symlink loop from " ++ quoted path
  | reported _ text => text

/-- The wording under which a fault is passed on: its own, or its name when it has none. -/
def Fault.wordingOrName : Fault → String
  | reported name "" => name
  | fault => fault.message

instance : Coe RequestError Fault := ⟨Fault.request⟩

end SymbolJump
