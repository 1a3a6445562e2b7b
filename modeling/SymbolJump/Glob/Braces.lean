/-
# Alternatives in braces

A pattern may hold groups of alternatives, `*.{ts,js}`. Expanding it replaces the first group
without inner braces by each of its options in turn, and goes on with the results until no
such group is left. Braces that do not pair up stand for themselves.
-/
import SymbolJump.Text.Pieces

namespace SymbolJump.Glob

open Text

/-- Whether a character is a brace. -/
def isBrace (c : Char) : Bool :=
  c == '\x7b' || c == '\x7d'

/-- The first group without inner braces: what stands before it, inside it and after it. -/
def firstGroup? : List Char → Option (List Char × List Char × List Char)
  | [] => none
  | c :: rest =>
      let further := (firstGroup? rest).map fun (before, inside, after) =>
        (c :: before, inside, after)
      if c = '\x7b' then
        match rest.dropWhile fun c => !isBrace c with
        | '\x7d' :: after => some ([], rest.takeWhile fun c => !isBrace c, after)
        | _ => further
      else further

/-- The expansion of a pattern in which at most the given number of groups is replaced on the
way to each result. -/
def expandUpTo : (groups : Nat) → List Char → List (List Char)
  | 0, pattern => [pattern]
  | groups + 1, pattern =>
      match firstGroup? pattern with
      | none => [pattern]
      | some (before, inside, after) =>
          (splitOn ',' inside).flatMap fun option =>
            expandUpTo groups (before ++ option ++ after)

/-- The expansion of a pattern. Every group opens with a brace of its own, so no more groups are
replaced than there are opening braces. -/
def expandChars (pattern : List Char) : List (List Char) :=
  expandUpTo (pattern.count '\x7b') pattern

/-- The patterns without groups that a pattern stands for. -/
def expand (pattern : String) : List String :=
  (expandChars pattern.toList).map String.ofList

end SymbolJump.Glob
