/-
# Names of symbols

An index decorates names: it appends a pair of brackets to what can be called, and puts the
receiver and a dot before a method. The plain name of a symbol is what remains without these,
and a candidate matches a query exactly when its plain name is the query.
-/
import SymbolJump.Text.Pieces

namespace SymbolJump.Name

open Text

/-- The decoration of what can be called. -/
def callSuffix : List Char := ['(', ')']

/-- The plain name in a list of characters: one call suffix is dropped, then everything up to
the last dot. -/
def plainChars (raw : List Char) : List Char :=
  afterLast '.' (dropEnding callSuffix raw)

/-- The plain name of a symbol. -/
def plain (raw : String) : String :=
  String.ofList (plainChars raw.toList)

/-- Whether a raw name is a decorated form of the query. Case counts. -/
def isExact (raw query : String) : Bool :=
  plain raw == query

@[simp]
theorem isExact_eq_true_iff (raw query : String) :
    isExact raw query = true ↔ plain raw = query := by
  simp [isExact]

end SymbolJump.Name
