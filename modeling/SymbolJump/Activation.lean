/-
# Waking the index

A language server often starts indexing only once it has seen a file of its language. Before a
query, one source file of the project is therefore loaded, unless a document of the language is
open already: that of the configured language, or of the first language one of whose markers is
found.
-/
import SymbolJump.Host

namespace SymbolJump.Activation

variable {σ : Type} (host : Host σ)

/-- Load the first source file that a detector finds. Its path is the answer, unless it is
empty. -/
def loadFirst (detector : Detector) : Act σ (Option String) := do
  match ← host.findFiles detector.pattern detector.excluded (some 1) with
  | [] => return none
  | path :: _ =>
      host.load path
      return if path = "" then none else some path

/-- The detectors whose documents show that the index is awake: those for the configured
language, or all when none is configured. -/
def relevant (detectors : List Detector) : Option Value → List Detector
  | some language => detectors.filter (·.isFor language)
  | none => detectors

/-- Load a source file for a configured language. -/
def activateFor (language : Value) (detector : Detector) : Act σ Unit := do
  match ← loadFirst host detector with
  | some path =>
      host.debug ("using configured language \"" ++ language.worded ++ "\", opened " ++ path ++
        " to trigger index")
  | none => return

/-- Try markers in order, each with its detector; the first that is found decides. -/
def activateByMarkers : List (Value × Detector) → Act σ Unit
  | [] => return
  | (marker, detector) :: rest => do
      if (← host.findFiles marker .null (some 1)).isEmpty then activateByMarkers rest
      else match ← loadFirst host detector with
        | some path =>
            host.debug ("detected " ++ marker.worded ++ ", opened " ++ path ++
              " to trigger index")
        | none => return

/-- The markers of detectors, each with its detector, in order. -/
def markers (detectors : List Detector) : List (Value × Detector) :=
  detectors.flatMap fun detector => detector.markers.map fun marker => (marker, detector)

/-- Make sure that the index has seen a source file of the project. -/
def activate (detectors : List Detector) (language : Option Value) : Act σ Unit := do
  let documents := host.documents (← get)
  match Detector.anyOpen documents (relevant detectors language) with
  | .error misfit => throw (.misfit misfit)
  | .ok true => host.debug "source document already open, index assumed active"
  | .ok false =>
      match language with
      | none => activateByMarkers host (markers detectors)
      | some language =>
          match detectors.find? (·.isFor language) with
          | some detector => activateFor host language detector
          | none =>
              host.debug ("configured language \"" ++ language.worded ++
                "\" not found in lang_detectors, falling back to detection")
              activateByMarkers host (markers detectors)

end SymbolJump.Activation
