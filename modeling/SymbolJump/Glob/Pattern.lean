/-
# Patterns for paths

A pattern is read from left to right: two stars and a slash stand for any number of folders, two
stars for any text, one star for any text inside a component, a question mark for one character
inside a component, and every other character for itself. Two stars do not reach over a line
feed. A pattern matches a path when it matches all of it. Its parts are taken from the last to
the first, and for each it is found out at once which ends of the path it matches together with
the parts after it; so a match takes no more steps than the parts times the path.
-/
import SymbolJump.Glob.Braces

namespace SymbolJump.Glob

/-- One part of a pattern. -/
inductive Part
  /-- Nothing, or a text that ends in a slash. -/
  | folders
  /-- Any text. -/
  | anything
  /-- Any text without a slash. -/
  | inComponent
  /-- One character other than a slash. -/
  | oneChar
  /-- The character itself. -/
  | char (c : Char)
deriving DecidableEq, Repr

/-- The parts of a pattern without groups. -/
def parts : List Char → List Part
  | [] => []
  | '*' :: '*' :: '/' :: rest => .folders :: parts rest
  | '*' :: '*' :: rest => .anything :: parts rest
  | '*' :: rest => .inComponent :: parts rest
  | '?' :: rest => .oneChar :: parts rest
  | c :: rest => .char c :: parts rest

/-- The ends of a path, the whole path first and the empty end last. -/
def ends : List Char → List (List Char)
  | [] => [[]]
  | c :: rest => (c :: rest) :: ends rest

/-- Given a mark for each end of a path, mark the ends that have one character more than a marked
end, where that character passes a test. -/
def markOneBefore (p : Char → Bool) : List Char → List Bool → List Bool
  | c :: path, _ :: marks => (p c && marks.headD false) :: markOneBefore p path marks
  | _, _ => [false]

/-- Given a mark for each end of a path, mark the ends that have any number of characters more
than a marked end, where all of them pass a test. -/
def markAnyBefore (p : Char → Bool) : List Char → List Bool → List Bool
  | c :: path, mark :: marks =>
      let later := markAnyBefore p path marks
      (mark || (p c && later.headD false)) :: later
  | _, marks => marks

/-- Given a mark for each end of a path that the later parts of a pattern match, mark the ends
that they match after this part. -/
def Part.markBefore : Part → List Char → List Bool → List Bool
  | folders, path, marks =>
      marks.zipWith (· || ·) (markAnyBefore (· ≠ '\n') path (markOneBefore (· = '/') path marks))
  | anything, path, marks => markAnyBefore (· ≠ '\n') path marks
  | inComponent, path, marks => markAnyBefore (· ≠ '/') path marks
  | oneChar, path, marks => markOneBefore (· ≠ '/') path marks
  | char c, path, marks => markOneBefore (· = c) path marks

/-- For each end of a path, whether the parts of a pattern match all of it. -/
def endsMatched (parts : List Part) (path : List Char) : List Bool :=
  parts.foldr (fun part marks => part.markBefore path marks) ((ends path).map List.isEmpty)

/-- Whether the parts of a pattern match all of a path. -/
def matchesParts (parts : List Part) (path : List Char) : Bool :=
  (endsMatched parts path).headD false

/-- Whether a pattern matches a path, on lists of characters. -/
def matchesChars (pattern path : List Char) : Bool :=
  (expandChars pattern).any fun alternative => matchesParts (parts alternative) path

/-- Whether a pattern matches a path. -/
def isMatch (pattern path : String) : Bool :=
  matchesChars pattern.toList path.toList

end SymbolJump.Glob
