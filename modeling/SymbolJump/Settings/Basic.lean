/-
# Settings

The settings are what a configuration means once it has been checked. Each choice is a type of
its own, with the word by which a configuration names it.
-/
import SymbolJump.Detector
import SymbolJump.Kind
import SymbolJump.Log

namespace SymbolJump

/-- What to do when several candidates match exactly. -/
inductive ManyPolicy
  /-- Take the first by priority. -/
  | first
  /-- Let the user choose. -/
  | pick
  /-- Take the first under the earliest open root. -/
  | byRoot
deriving DecidableEq, Repr

/-- What to do when the project of a request is not open. -/
inductive NotOpenPolicy
  | newWindow
  | currentWindow
  | error
deriving DecidableEq, Repr

/-- What to do when a request ends without a match. -/
inductive NotFoundPolicy
  | error
  | search
deriving DecidableEq, Repr

namespace ManyPolicy

/-- All policies, in the order in which a refusal lists them. -/
def all : List ManyPolicy := [first, pick, byRoot]

/-- The word for a policy. -/
def word : ManyPolicy → String
  | first => "first"
  | pick => "quickpick"
  | byRoot => "workspace-priority"

end ManyPolicy

namespace NotOpenPolicy

/-- All policies, in the order in which a refusal lists them. -/
def all : List NotOpenPolicy := [newWindow, currentWindow, error]

/-- The word for a policy. -/
def word : NotOpenPolicy → String
  | newWindow => "new-window"
  | currentWindow => "current-window"
  | error => "error"

end NotOpenPolicy

namespace NotFoundPolicy

/-- All policies, in the order in which a refusal lists them. -/
def all : List NotFoundPolicy := [error, search]

/-- The word for a policy. -/
def word : NotFoundPolicy → String
  | error => "error"
  | search => "search"

end NotFoundPolicy

/-- The settings of one request. -/
structure Settings where
  /-- The project language, when the user has fixed it. -/
  language : Option Value
  many : ManyPolicy
  notOpen : NotOpenPolicy
  notFound : NotFoundPolicy
  /-- How many rounds of queries a request may take. -/
  retryCount : Nat
  /-- The wait between two rounds, in milliseconds. -/
  retryInterval : Nat
  detectors : List Detector
  logLevel : LogLevel
  /-- The names of kinds by priority. They are checked when a request needs them. -/
  priority : List String
  editorCommand : String
deriving DecidableEq

end SymbolJump
