/-
# Lexical normal forms of paths

Two spellings of a path are the same project when they have the same normal form: empty
components and single dots are dropped, a double dot cancels the ordinary component before it,
and a path keeps how many slashes it starts with, where one and three or more mean the same and
two do not. Nothing is looked up on a disk.
-/
import SymbolJump.Text.Pieces

namespace SymbolJump.Path

open Text

/-- The slashes that the normal form of a path starts with. -/
def leadingSlashes : List Char → Nat
  | '/' :: '/' :: '/' :: _ => 1
  | '/' :: '/' :: _ => 2
  | '/' :: _ => 1
  | _ => 0

/-- The components before the next one, in reverse, with that one taken in. Above the root of an
absolute path there is nothing. -/
def takeComponent (absolute : Bool) (done : List (List Char)) (component : List Char) :
    List (List Char) :=
  if component = [] ∨ component = ['.'] then done
  else if component = ['.', '.'] then
    match done with
    | [] => if absolute then [] else [component]
    | last :: earlier => if last = ['.', '.'] then component :: done else earlier
  else component :: done

/-- The components of the normal form of a path. -/
def normalComponents (path : List Char) : List (List Char) :=
  ((splitOn '/' path).foldl (takeComponent (leadingSlashes path != 0)) []).reverse

/-- The normal form of a path: its leading slashes and its components. The empty path stands
apart; it is no spelling of the current folder. -/
structure Normal where
  slashes : Nat
  components : List (List Char)
  empty : Bool
deriving DecidableEq

/-- The normal form of a path. -/
def normal (path : String) : Normal :=
  let chars := path.toList
  ⟨leadingSlashes chars, normalComponents chars, chars.isEmpty⟩

/-- Whether a project is one of the open roots. -/
def isOpenAmong (project : String) (roots : List String) : Bool :=
  roots.any fun root => normal root == normal project

end SymbolJump.Path
