/-
# Candidates

A candidate is one match from the symbol index: the name as the index has it, a kind, and where
the symbol is defined. The place inside a file and the name of the container are passed on as
the index gave them.
-/
import SymbolJump.Kind
import SymbolJump.Name

namespace SymbolJump

/-- Where a symbol is defined. Lines and columns count from zero. -/
structure Location where
  path : String
  line : Json := .int 0
  column : Json := .int 0
deriving DecidableEq

/-- One match from the symbol index. -/
structure Candidate where
  name : String
  kind : Kind
  location : Location
  container : Json := .null
deriving DecidableEq

namespace Candidate

/-- Whether a candidate's plain name is the query. -/
def isExactFor (candidate : Candidate) (query : String) : Bool :=
  Name.isExact candidate.name query

/-- Whether a candidate's kind is admitted. -/
def isAdmitted (admitted : Option (List Kind)) (candidate : Candidate) : Bool :=
  Kind.isAdmitted admitted candidate.kind.code

end Candidate

end SymbolJump
