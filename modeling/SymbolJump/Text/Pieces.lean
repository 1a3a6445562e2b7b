/-
# Cutting and joining text

Text is cut at a separator character, at its last occurrence, or at a known ending, and searched
for another text. All functions work on lists of characters, so that each has a plain recursive
reading; none of them looks at what the characters mean.
-/
namespace SymbolJump.Text

/-- The pieces between the occurrences of a separator. A text without the separator is its own
only piece, so there is always at least one. -/
def splitOn (separator : Char) : List Char → List (List Char)
  | [] => [[]]
  | c :: rest =>
      if c = separator then [] :: splitOn separator rest
      else match splitOn separator rest with
        | [] => [[c]]
        | piece :: pieces => (c :: piece) :: pieces

theorem splitOn_ne_nil (separator : Char) (text : List Char) : splitOn separator text ≠ [] := by
  cases text with
  | nil => simp [splitOn]
  | cons c rest =>
      unfold splitOn
      split
      · simp
      · split <;> simp

/-- The text before the first occurrence of a separator, and the text after it when there is
one. -/
def cutAt (separator : Char) : List Char → List Char × Option (List Char)
  | [] => ([], none)
  | c :: rest =>
      if c = separator then ([], some rest)
      else
        let (before, after) := cutAt separator rest
        (c :: before, after)

/-- The text after the last occurrence of a separator; all of it when there is none. -/
def afterLast (separator : Char) (text : List Char) : List Char :=
  (text.reverse.takeWhile (· ≠ separator)).reverse

/-- The text up to and including the last occurrence of a separator; nothing when there is
none. -/
def throughLast (separator : Char) (text : List Char) : List Char :=
  (text.reverse.dropWhile (· ≠ separator)).reverse

theorem throughLast_append_afterLast (separator : Char) (text : List Char) :
    throughLast separator text ++ afterLast separator text = text := by
  simp [throughLast, afterLast, ← List.reverse_append]

/-- The text without a given ending; unchanged when it does not end so. -/
def dropEnding (ending text : List Char) : List Char :=
  if ending.isSuffixOf text then text.take (text.length - ending.length) else text

@[simp]
theorem dropEnding_append (ending text : List Char) :
    dropEnding ending (text ++ ending) = text := by
  simp [dropEnding]

/-- Whether a text occurs somewhere inside another. -/
def occursIn (needle : List Char) : List Char → Bool
  | [] => needle.isEmpty
  | c :: rest => needle.isPrefixOf (c :: rest) || occursIn needle rest

/-- A text without the given characters at its end. -/
def dropTrailing (p : Char → Bool) (text : List Char) : List Char :=
  (text.reverse.dropWhile p).reverse

/-- A text without the given characters at either end. -/
def trimBoth (p : Char → Bool) (text : List Char) : List Char :=
  dropTrailing p (text.dropWhile p)

/-- The texts of a list with a separator between neighbours. -/
def joinWith (separator : String) : List String → String
  | [] => ""
  | [text] => text
  | text :: texts => text ++ separator ++ joinWith separator texts

end SymbolJump.Text
