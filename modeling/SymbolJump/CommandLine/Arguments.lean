/-
# Command-line arguments

A command line has options of its own in front of a command, and the command has arguments of
its own. An option may be cut short as long as one option alone starts so, and its value may
follow behind an equals sign. A double dash says that no option follows. What an argument is
depends on the options known where it stands; negative numbers and texts with a blank are never
unknown options.
-/
import SymbolJump.Text.Digits
import SymbolJump.Text.Pieces
import SymbolJump.Text.Quoted

namespace SymbolJump.CommandLine

open Text

/-- The name of the program. -/
def programName : String := "symbol-opener"

/-- What an option is for. -/
inductive Setting
  | help
  | config
  | state
  | index
  | root
deriving DecidableEq, Repr

/-- The options in front of the command, by name. -/
def mainOptions : List (String × Setting) :=
  [("-h", .help), ("--help", .help), ("--config", .config), ("--state", .state),
   ("--index", .index), ("--root", .root)]

/-- The options of each command, by name. -/
def commandOptions : List (String × Setting) :=
  [("-h", .help), ("--help", .help)]

/-- How a setting is called in messages. -/
def Setting.label : Setting → String
  | help => "-h/--help"
  | config => "--config"
  | state => "--state"
  | index => "--index"
  | root => "--root"

/-- What is to be done. -/
inductive Command
  | openUri (uri : String)
  | resume
deriving DecidableEq, Repr

/-- The names of the commands. -/
def commandNames : List String := ["open", "resume"]

/-- A command line that was understood. -/
structure Invocation where
  config : Option String := none
  state : Option String := none
  index : String := ".symbols.json"
  roots : List String := []
  command : Command
deriving DecidableEq, Repr

/-- Why a command line is refused. -/
inductive UsageProblem
  | ambiguousOption (argument : String) (names : List String)
  | ignoredValue (setting : Setting) (value : String)
  | missingValue (setting : Setting)
  | unknownCommand (name : String)
  | missingArgument (name : String)
  | unrecognized (arguments : List String)
deriving DecidableEq, Repr

/-- How reading a command line can end without an invocation. The command is that whose
arguments were being read. -/
inductive Refused
  | problem (command : Option String) (problem : UsageProblem)
  | helpWanted (command : Option String)
deriving DecidableEq, Repr

/-- The wording of a refused command line. -/
def UsageProblem.message : UsageProblem → String
  | ambiguousOption argument names =>
      "ambiguous option: " ++ argument ++ " could match " ++ joinWith ", " names
  | ignoredValue setting value =>
      "argument " ++ setting.label ++ ": ignored explicit argument " ++ quoted value
  | missingValue setting => "argument " ++ setting.label ++ ": expected one argument"
  | unknownCommand name =>
      "argument command: invalid choice: " ++ quoted name ++ " (choose from " ++
        joinWith ", " (commandNames.map quoted) ++ ")"
  | missingArgument name => "the following arguments are required: " ++ name
  | unrecognized arguments => "unrecognized arguments: " ++ joinWith " " arguments

/-- The name of the program and of a command whose arguments are read. -/
def programFor (command : Option String) : String :=
  match command with
  | some name => programName ++ " " ++ name
  | none => programName

/-- What an argument is. -/
inductive Role
  /-- No option: a value or an argument. -/
  | plain
  /-- The double dash after which nothing is an option. -/
  | separator
  /-- An option, unless it is unknown, with the value behind its equals sign. -/
  | option (setting : Option Setting) (value : Option String)
deriving DecidableEq, Repr

/-- Whether a text is a negative number. -/
def isNegativeNumber (text : List Char) : Bool :=
  let isDigit (c : Char) : Bool := (digitValue? c).isSome
  match text with
  | '-' :: rest =>
      match cutAt '.' rest with
      | (whole, none) => !whole.isEmpty && whole.all isDigit
      | (whole, some part) => whole.all isDigit && !part.isEmpty && part.all isDigit
  | _ => false

/-- The name and the value of an argument around its first equals sign. -/
def cutValue (argument : String) : String × Option String :=
  let (name, value) := cutAt '=' argument.toList
  (String.ofList name, value.map String.ofList)

/-- The options that an argument with an unknown name may mean: those that start with it, or the
short one that it starts with. -/
def optionsMeant (options : List (String × Setting)) (argument : String) :
    List (String × Setting × Option String) :=
  match argument.toList with
  | '-' :: '-' :: _ =>
      let (name, value) := cutValue argument
      (options.filter fun option => name.toList.isPrefixOf option.1.toList).map fun option =>
        (option.1, option.2, value)
  | '-' :: short :: rest =>
      (options.filter fun option => option.1 == String.ofList ['-', short]).map fun option =>
        (option.1, option.2, some (String.ofList rest))
  | _ => []

/-- What an argument is among some options, when no double dash stands before it. -/
def roleOf (options : List (String × Setting)) (argument : String) :
    Except UsageProblem Role :=
  let chars := argument.toList
  let (name, value) := cutValue argument
  if chars.head? ≠ some '-' ∨ argument = "-" then .ok .plain
  else match options.lookup argument, value.bind fun _ => options.lookup name with
    | some setting, _ => .ok (.option (some setting) none)
    | none, some setting => .ok (.option (some setting) value)
    | none, none =>
        match optionsMeant options argument with
        | [(_, setting, value)] => .ok (.option (some setting) value)
        | [] =>
            if isNegativeNumber chars || chars.contains ' ' then .ok .plain
            else .ok (.option none none)
        | several => .error (.ambiguousOption argument (several.map Prod.fst))

/-- Arguments with what they are. -/
def rolesOf (options : List (String × Setting)) :
    List String → Except UsageProblem (List (String × Role))
  | [] => .ok []
  | "--" :: rest => .ok (("--", .separator) :: rest.map fun argument => (argument, .plain))
  | argument :: rest => do
      let role ← roleOf options argument
      return (argument, role) :: (← rolesOf options rest)

/-- What the option for help comes to, under its short or its long name. It takes no value;
behind its short name more of the same letter may follow. -/
def helpOutcome (command : Option String) (argument : String) (value : Option String) :
    Refused :=
  match value with
  | none => .helpWanted command
  | some value =>
      let isShort := !"--".toList.isPrefixOf argument.toList
      let rest := if isShort then value.toList.dropWhile (· = 'h') else value.toList
      if rest.isEmpty ∧ value ≠ "" then .helpWanted command
      else .problem command (.ignoredValue .help (String.ofList rest))

/-- What the arguments of the command that opens a URI come to: the URI, and what was not
recognised. -/
def readOpen (uri : Option String) (extra : List String) :
    List (String × Role) → Except Refused (Option String × List String)
  | [] => .ok (uri, extra)
  | (argument, .option (some _) value) :: _ => .error (helpOutcome (some "open") argument value)
  | (argument, .option none _) :: rest => readOpen uri (extra ++ [argument]) rest
  | (argument, role) :: rest =>
      match uri, role, rest with
      | none, .separator, (text, .plain) :: rest => readOpen (some text) extra rest
      | none, .plain, (_, .separator) :: rest => readOpen (some argument) extra rest
      | none, .plain, rest => readOpen (some argument) extra rest
      | uri, _, rest => readOpen uri (extra ++ [argument]) rest

/-- What the arguments of the command that resumes come to: none is recognised. -/
def readResume (extra : List String) :
    List (String × Role) → Except Refused (List String)
  | [] => .ok extra
  | (argument, .option (some _) value) :: _ =>
      .error (helpOutcome (some "resume") argument value)
  | (argument, _) :: rest => readResume (extra ++ [argument]) rest

/-- The command with its arguments, and what was not recognised among them. -/
def readCommand (name : String) (arguments : List String) :
    Except Refused (Command × List String) := do
  if !commandNames.contains name then throw (.problem none (.unknownCommand name))
  match rolesOf commandOptions arguments with
  | .error problem => throw (.problem (some name) problem)
  | .ok roles =>
      if name = "open" then
        match ← readOpen none [] roles with
        | (some uri, extra) => return (.openUri uri, extra)
        | (none, _) => throw (.problem (some name) (.missingArgument "uri"))
      else return (.resume, ← readResume [] roles)

/-- The options given so far, with a command still to come. -/
structure Options where
  config : Option String := none
  state : Option String := none
  index : String := ".symbols.json"
  roots : List String := []

/-- The options with one more. The last value of an option counts; roots add up. -/
def Options.add (options : Options) (setting : Setting) (value : String) : Options :=
  match setting with
  | .help => options
  | .config => { options with config := some value }
  | .state => { options with state := some value }
  | .index => { options with index := value }
  | .root => { options with roots := options.roots ++ [value] }

/-- Read what is in front of the command, and the command. -/
def readMain (options : Options) (extra : List String) :
    List (String × Role) → Except Refused Invocation
  | [] => .error (.problem none (.missingArgument "command"))
  | (argument, .option none _) :: rest => readMain options (extra ++ [argument]) rest
  | (argument, .option (some .help) value) :: _ => .error (helpOutcome none argument value)
  | (_, .option (some setting) (some value)) :: rest =>
      readMain (options.add setting value) extra rest
  | (_, .option (some setting) none) :: (value, .plain) :: rest =>
      readMain (options.add setting value) extra rest
  | (_, .option (some setting) none) :: _ => .error (.problem none (.missingValue setting))
  | [(_, .separator)] => .error (.problem none (.missingArgument "command"))
  | (name, _) :: rest => do
      let (command, more) ← readCommand name (rest.map Prod.fst)
      match extra ++ more with
      | [] =>
          return {
            config := options.config
            state := options.state
            index := options.index
            roots := options.roots
            command }
      | extra => throw (.problem none (.unrecognized extra))

/-- Read a command line. -/
def read (arguments : List String) : Except Refused Invocation :=
  match rolesOf mainOptions arguments with
  | .error problem => .error (.problem none problem)
  | .ok roles => readMain {} [] roles

end SymbolJump.CommandLine
