/-
# Checking a configuration

A configuration is an object of settings. Settings that are missing have a value of their own;
each that is there is checked in a fixed order, and the first that is refused decides the error.
The names of kinds are left unchecked here. A value is refused by showing it, so one that cannot
be shown is a failure of another sort.
-/
import SymbolJump.Settings.Basic

namespace SymbolJump.Settings

/-- A refused configuration. -/
def refuse {α : Type} (cause : ConfigError) : Except Fault α :=
  .error (.request (.badConfig cause))

/-- A refused value of a configuration. -/
def refuseValue {α : Type} (value : Value) (cause : Value → ConfigError) : Except Fault α :=
  if value.isShowable then refuse (cause value) else .error (.refusal .longNumber)

/-- The word that a value stands for. -/
def wordOf (value : Value) : Except Fault String :=
  if value.isShowable then .ok value.worded else .error (.refusal .longNumber)

/-- The choice that a value names. -/
def choiceOf {α : Type} (key : String) (all : List α) (word : α → String) (value : Value) :
    Except Fault α :=
  match all.find? fun option => value.asText? == some (word option) with
  | some option => .ok option
  | none => refuseValue value (.noChoice · key (all.map word))

/-- The whole number in a value, at least the given one. -/
def countOf (key : String) (least : Nat) (value : Value) : Except Fault Nat :=
  match value with
  | .int n =>
      if (least : Int) ≤ n then .ok n.toNat else refuseValue value (.noCount · key least)
  | value => refuseValue value (.noCount · key least)

/-- The markers of an entry of the detectors. An entry may stand as its own markers. -/
def markersIn (fields : Mapping) : Except Misfit (List Value) :=
  match fields.getOr "markers" (.list []) with
  | .again _ => .ok (fields.map fun field => .scalar field.1)
  | value => Detector.markersOf value

/-- The detector in a value: an object with a pattern. -/
def detectorOf (value : Value) : Except Fault Detector :=
  match value with
  | .object fields =>
      let pattern := Mapping.getOrNull fields "glob"
      if pattern.isTruthy then
        match markersIn fields with
        | .ok markers =>
            .ok {
              language := Mapping.getOrNull fields "lang"
              markers
              pattern
              excluded := Mapping.getOrNull fields "exclude" }
        | .error misfit => .error (.misfit misfit)
      else refuseValue value .badDetector
  | _ => refuseValue value .badDetector

/-- The detectors in a value. -/
def detectorsOf (value : Value) : Except Fault (List Detector) :=
  match value with
  | .list entries => entries.mapM detectorOf
  | _ => refuse .detectorsNotList

/-- The level of logging that a value names. -/
def logLevelOf (value : Value) : Except Fault LogLevel :=
  match value.asText?.bind LogLevel.ofWord? with
  | some level => .ok level
  | none => refuseValue value .unknownLogLevel

/-- The values that name kinds. -/
def priorityOf (value : Value) : Except Fault (List Value) :=
  match value with
  | .list names => .ok names
  | _ => refuse .priorityNotList

/-- The settings that a configuration means. -/
def ofConfig (config : Mapping) : Except Fault Settings := do
  let logLevel ← logLevelOf (config.getOr "log_level" (.text "info"))
  let names ← priorityOf (config.getOr "symbol_sort_priority" (.list []))
  let language := config.getOrNull "language"
  let many ← choiceOf "multiple_symbol_behavior" ManyPolicy.all ManyPolicy.word
    (config.getOr "multiple_symbol_behavior" (.text "first"))
  let notOpen ← choiceOf "workspace_not_open_behavior" NotOpenPolicy.all NotOpenPolicy.word
    (config.getOr "workspace_not_open_behavior" (.text "new-window"))
  let notFound ← choiceOf "symbol_not_found_behavior" NotFoundPolicy.all NotFoundPolicy.word
    (config.getOr "symbol_not_found_behavior" (.text "search"))
  let retryCount ← countOf "retry_count" 1 (config.getOr "retry_count" (.int 10))
  let retryInterval ← countOf "retry_interval" 0 (config.getOr "retry_interval" (.int 500))
  let detectors ← detectorsOf (config.getOr "lang_detectors" (.list []))
  let priority ← names.mapM wordOf
  let editorCommand ← wordOf (config.getOr "editor_command" (.text "code"))
  return {
    language := if language.isTruthy then some language else none
    many
    notOpen
    notFound
    retryCount
    retryInterval
    detectors
    logLevel
    priority
    editorCommand }

end SymbolJump.Settings
