/-
# Resolving a query

A query is resolved in rounds. A round asks the index under two spellings of the name and takes
the first answer that is not empty. An empty round is repeated after a wait, since the index may
still be filling; any other answer settles the query. Kind names are checked before the first
round, and a cancelled request ends before its next one.
-/
import SymbolJump.Choice
import SymbolJump.Json.Writer

namespace SymbolJump

/-- What to look for: a plain name, and perhaps the name of a kind. -/
structure Query where
  name : String
  hint : Option String := none
deriving DecidableEq

namespace Resolution

variable {σ : Type} (host : Host σ)

/-- The spellings under which an index is asked. Some servers search a whole workspace only for
a name behind a hash sign. -/
def spellings (name : String) : List String :=
  ["#" ++ name, name]

/-- Ask the index under each spelling until an answer is not empty. -/
def askFirst : (spellings : List String) → Act σ (List Candidate)
  | [] => return []
  | spelling :: rest => do
      let symbols := (← host.query spelling).getD []
      host.debug ("query=\"" ++ spelling ++ "\", results=" ++ toString symbols.length)
      if symbols.isEmpty then askFirst rest else return symbols

/-- One round of questions. -/
def findSymbols (name : String) : Act σ (List Candidate) :=
  askFirst host (spellings name)

/-- What the log shows of the answer of an index. -/
def summary (symbols : List Candidate) : Json Text.Wide :=
  .list (symbols.map fun symbol =>
    .object [("name", .text symbol.name), ("kind", .int symbol.kind.code)])

/-- Settle a query by an answer that is not empty: exact matches of an admitted kind first, then
other candidates of an admitted kind. -/
def settle (query : Query) (admitted : Option (List Kind)) (priority : Priority)
    (policy : ManyPolicy) (symbols : List Candidate) : Act σ Outcome := do
  let inKind := symbols.filter (Candidate.isAdmitted admitted)
  let exact := inKind.filter (·.isExactFor query.name)
  if !exact.isEmpty then Choice.select host priority policy exact
  else if !inKind.isEmpty then
    host.debug ("no exact match, offering " ++ toString inKind.length ++ " similar symbols")
    Choice.selectSimilar host inKind
  else
    host.debug ("index answered but nothing matched kind " ++
      (Json.ofText? query.hint).worded)
    return .notFound

/-- One round; nothing when the index answered nothing. -/
def round (query : Query) (admitted : Option (List Kind)) (priority : Priority)
    (policy : ManyPolicy) : Act σ (Option Outcome) := do
  let symbols ← findSymbols host query.name
  if symbols.isEmpty then return none
  else
    host.debug ("raw results: " ++ (summary symbols).compact)
    return some (← settle host query admitted priority policy symbols)

/-- A fault of the index or the picker as the failure of a request. -/
def asRequestError : Fault → RequestError
  | .request error => error
  | fault => .indexFailed fault.wordingOrName

/-- The least number of milliseconds that a host cannot wait for. It counts seconds in doubles,
and from here on they round beyond the largest one. -/
def tooLong : Nat := 1000 * (Nat.pow 2 1024 - Nat.pow 2 970)

/-- Wait before the next round, unless the wait is too long for the host. -/
def pause (settings : Settings) : Act σ Unit :=
  if settings.retryInterval < tooLong then host.wait settings.retryInterval
  else throw (.overflow .wait)

/-- The rounds of a query that are left, the first of which has the given number. -/
def rounds (query : Query) (admitted : Option (List Kind)) (priority : Priority)
    (settings : Settings) (token : Option (σ → Bool)) (number : Nat) :
    (left : Nat) → Act σ Outcome
  | 0 => return .notFound
  | left + 1 => do
      let progress := toString number ++ "/" ++ toString settings.retryCount
      if (token.map (· (← get))).getD false then
        host.debug ("cancelled before attempt " ++ progress)
        return .cancelled
      else
        host.debug ("attempt " ++ progress)
        let outcome ←
          tryCatch (round host query admitted priority settings.many) fun fault =>
            throw (.request (asRequestError fault))
        match outcome with
        | some outcome => return outcome
        | none =>
            if left ≠ 0 then pause host settings
            rounds query admitted priority settings token (number + 1) left

/-- Resolve a query. The names of kinds are checked first, those of the settings before the
query's. The token, if any, says whether the request was cancelled. -/
def resolve (query : Query) (settings : Settings) (token : Option (σ → Bool)) :
    Act σ Outcome := do
  match Priority.ofNames settings.priority with
  | .error error => throw (.request error)
  | .ok priority =>
      match Kind.ofHint query.hint with
      | .error error => throw (.request error)
      | .ok admitted =>
          rounds host query admitted priority settings token 1 settings.retryCount

end Resolution

end SymbolJump
