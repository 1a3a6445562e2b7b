/-
# A configuration over another

A user's configuration is laid over the defaults. Objects are merged field by field at any
depth, and any other value takes the place of the one below it. Lists of detectors are merged
entry by entry: an entry takes the place of the one for the same language, and an entry for a
new language, or for none, is added at the end.
-/
import SymbolJump.Value.Basic

namespace SymbolJump.Settings

/-- The key whose lists are merged entry by entry. -/
def detectorsKey : Scalar := "lang_detectors"

/-- The language of an entry of a list of detectors, when it has one. -/
def entryLanguage? : Value → Option Value
  | .object fields =>
      match Mapping.getOrNull fields "lang" with
      | .null => none
      | language => some language
  | _ => none

/-- Whether a value can tell languages apart: only a scalar can. -/
def isLanguage : Value → Bool
  | .scalar _ => true
  | _ => false

/-- Whether an entry is for a language. -/
def isEntryFor (language entry : Value) : Bool :=
  match entryLanguage? entry with
  | some other => other.alike language
  | none => false

/-- A list with its last item that passes a test replaced; nothing when no item passes. -/
def replaceLast? (p : Value → Bool) (item : Value) : List Value → Option (List Value)
  | [] => none
  | x :: rest =>
      match replaceLast? p item rest with
      | some replaced => some (x :: replaced)
      | none => if p x then some (item :: rest) else none

/-- A list of detectors with one more entry laid over it. -/
def placeEntry (entries : List Value) (entry : Value) : List Value :=
  match entryLanguage? entry with
  | none => entries ++ [entry]
  | some language =>
      (replaceLast? (isEntryFor language) entry entries).getD (entries ++ [entry])

/-- Whether every language of a list of detectors can be told apart. -/
def languagesAreTold (entries : List Value) : Bool :=
  entries.all fun entry => ((entryLanguage? entry).map isLanguage).getD true

/-- A list of detectors laid over another; nothing when a language cannot be told apart. -/
def overlayEntries? (base update : List Value) : Option (List Value) :=
  if languagesAreTold base && languagesAreTold update then some (update.foldl placeEntry base)
  else none

mutual

/-- The value that a field takes when a value is laid over the one it has. -/
def overlayValue? (key : Scalar) (old : Option Value) : Value → Option Value
  | .object update =>
      match old with
      | some (.object base) => (overlay? base update).map Value.object
      | _ => some (.object update)
  | .list update =>
      match old with
      | some (.list base) =>
          if key = detectorsKey then (overlayEntries? base update).map Value.list
          else some (.list update)
      | _ => some (.list update)
  | value => some value

/-- The fields of an object laid over those of another; nothing when a language of a detector
cannot be told apart. -/
def overlay? (base : Mapping) : List (Scalar × Value) → Option Mapping
  | [] => some base
  | (key, value) :: update => do
      let merged ← overlayValue? key (base.get? key) value
      overlay? (base.set key merged) update

end

end SymbolJump.Settings
