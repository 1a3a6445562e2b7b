/-
# The default configuration

The configuration that holds where the user's says nothing. Type definitions come before what
can be called in the order of kinds, and the waits leave a language server time to index a
project that has just been opened.
-/
import SymbolJump.Value.Basic

namespace SymbolJump.Settings

/-- A list of texts. -/
def textList (texts : List String) : Value :=
  .list (texts.map .text)

/-- A detector of the default configuration. -/
def defaultDetector (language : String) (markers : List String) (pattern excluded : String) :
    Value :=
  .object [
    ("lang", .text language),
    ("markers", textList markers),
    ("glob", .text pattern),
    ("exclude", .text excluded)]

/-- The detectors of the default configuration. -/
def defaultDetectors : List Value := [
  defaultDetector "go" ["go.mod"] "**/*.go" "**/vendor/**",
  defaultDetector "rust" ["Cargo.toml"] "**/*.rs" "**/target/**",
  defaultDetector "python" ["pyproject.toml", "requirements.txt", "setup.py"]
    "**/*.py" "**/.venv/**",
  defaultDetector "ruby" ["Gemfile"] "**/*.rb" "**/vendor/**",
  defaultDetector "java" ["pom.xml", "build.gradle", "build.gradle.kts"]
    "**/*.java" "**/target/**",
  defaultDetector "cpp" ["CMakeLists.txt"]
    "**/*.\x7bc,cpp,cc,cxx,h,hpp,hxx\x7d" "**/build/**",
  defaultDetector "typescript" ["tsconfig.json", "package.json"]
    "**/*.\x7bts,js\x7d" "**/node_modules/**"]

/-- The default configuration. -/
def defaultConfig : Mapping := [
  ("language", .null),
  ("multiple_symbol_behavior", .text "first"),
  ("workspace_not_open_behavior", .text "new-window"),
  ("symbol_not_found_behavior", .text "search"),
  ("retry_count", .int 10),
  ("retry_interval", .int 500),
  ("log_level", .text "info"),
  ("editor_command", .text "code"),
  ("lang_detectors", .list defaultDetectors),
  ("symbol_sort_priority", textList [
    "Class", "Interface", "Struct", "Function", "Method", "Constructor", "Constant", "Property",
    "Field", "Enum", "Variable"])]

end SymbolJump.Settings
