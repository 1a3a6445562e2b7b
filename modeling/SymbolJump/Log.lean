/-
# Log lines

What a run reports on the side. A line has a severity and a message; a log keeps the lines that
pass its level.
-/
import SymbolJump.Text.Pieces

namespace SymbolJump

/-- How much is logged. -/
inductive LogLevel
  | debug
  | info
deriving DecidableEq, Repr

/-- How serious a log line is. -/
inductive Severity
  | debug
  | info
  | warning
  | error
  | critical
deriving DecidableEq, Repr

/-- One line of a log, before it is broken at the line breaks of its message. -/
structure LogLine where
  severity : Severity
  message : String
deriving DecidableEq, Repr

namespace LogLevel

/-- The word for a level. -/
def word : LogLevel → String
  | debug => "debug"
  | info => "info"

/-- The level that a word names. -/
def ofWord? (word : String) : Option LogLevel :=
  [debug, info].find? fun level => level.word == word

/-- Whether a log of this level keeps lines of a severity. -/
def keeps : LogLevel → Severity → Bool
  | debug, _ => true
  | info, severity => severity != .debug

end LogLevel

namespace Severity

/-- The word for a severity. -/
def word : Severity → String
  | debug => "DEBUG"
  | info => "INFO"
  | warning => "WARNING"
  | error => "ERROR"
  | critical => "CRITICAL"

end Severity

namespace LogLine

/-- The text of a line. -/
def text (line : LogLine) : String :=
  "[" ++ line.severity.word ++ "] " ++ line.message

end LogLine

end SymbolJump
