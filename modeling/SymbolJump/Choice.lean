/-
# Choosing among candidates

Candidates are ordered by the priority of their kinds, those of equal priority as the index gave
them. What happens then is a matter of policy: the first is taken, the user chooses, or the
first under the earliest open root is taken.
-/
import SymbolJump.Host
import SymbolJump.Path.Roots

namespace SymbolJump

/-- How a resolution ends. -/
inductive Outcome
  | found (candidate : Candidate)
  | notFound
  | cancelled
deriving DecidableEq

namespace Choice

/-- The prompt for several exact matches. -/
def exactPrompt : String := "Select a symbol"

/-- The prompt for candidates that match no more than roughly. -/
def similarPrompt : String := "No exact match found. Select a similar symbol:"

/-- Candidates by the priority of their kinds; kinds without a priority come last. -/
def sortByPriority (priority : Priority) (candidates : List Candidate) : List Candidate :=
  candidates.mergeSort fun a b => decide (priority.rank a.kind ≤ priority.rank b.kind)

/-- The first candidate under the earliest root that has one. -/
def firstUnderRoots? (candidates : List Candidate) (roots : List String) : Option Candidate :=
  roots.findSome? fun root =>
    candidates.find? fun candidate => Path.isUnder candidate.location.path root

variable {σ : Type} (host : Host σ)

/-- Let the user choose. A dismissed picker cancels. -/
def pick (prompt : String) (candidates : List Candidate) : Act σ Outcome := do
  match ← host.pick prompt candidates with
  | some candidate => return .found candidate
  | none =>
      host.debug "picker dismissed"
      return .cancelled

/-- Choose among exact matches. There must be one. -/
def select (priority : Priority) (policy : ManyPolicy) (candidates : List Candidate) :
    Act σ Outcome := do
  match sortByPriority priority candidates with
  | [] => throw (.refusal .noCandidates)
  | [only] => return .found only
  | first :: others =>
      match policy with
      | .first => return .found first
      | .pick => pick host exactPrompt (first :: others)
      | .byRoot =>
          let roots := host.roots (← get)
          return .found ((firstUnderRoots? (first :: others) roots).getD first)

/-- Choose among candidates that are no exact match. -/
def selectSimilar (candidates : List Candidate) : Act σ Outcome :=
  pick host similarPrompt candidates

end Choice

end SymbolJump
