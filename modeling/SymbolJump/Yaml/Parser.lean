/-
# A parser of configurations

The parser that comes with the program reads the common part of the configuration language: plain,
quoted and block scalars, collections in both styles, anchors and aliases. It has no tags and no
dates.
-/
import SymbolJump.Settings.File
import SymbolJump.Yaml.Meaning

namespace SymbolJump.Yaml

open Settings

/-- How a text without a document is not parsed. A number that cannot be read and a character that
does not exist are no matter of the language. -/
def Problem.toParseError : Problem → ParseError
  | .noDigits base => .fault (.refusal (.noNumeral base ""))
  | .longNumeral length => .fault (.refusal (.longNumeral length))
  | .longSixties => .fault (.overflow .place)
  | .noCharacter code =>
      .fault (if code < Nat.pow 2 31 then .refusal .noCharacter else .overflow .characterNumber)
  | problem => .problem problem.message

/-- Parse a text of the common part of the language. -/
def parser : Parser := fun text =>
  (read text).mapError Problem.toParseError

end SymbolJump.Yaml
