/-
# Verdicts on a configuration

A configuration goes through a row of checks. Each of them accepts a value, refuses it, or gets
stuck: a number with too many digits can neither be shown in a refusal nor stand for a word, and
markers of a detector may be something that has no items. The first check that does not accept
decides what becomes of the configuration.
-/
import SymbolJump.Settings.File

namespace SymbolJump

namespace Settings

/-- How a check comes out. -/
inductive Verdict
  | accepted
  | refused
  /-- The check fails, but not with a refusal. -/
  | stuck
deriving DecidableEq

namespace Verdict

variable {α β : Type}

/-- The verdict of the first check that does not accept. -/
def first : List Verdict → Verdict
  | [] => accepted
  | accepted :: rest => first rest
  | verdict :: _ => verdict

/-- The answer of a check comes out with a verdict. -/
inductive Comes : Except Fault α → Verdict → Prop
  | ok (answer : α) : Comes (.ok answer) accepted
  | refusal (cause : ConfigError) : Comes (.error (.request (.badConfig cause))) refused
  | encoding (malformed : Text.Utf8.Malformed) : Comes (.error (.encoding malformed)) stuck
  | value (cause : Refusal) : Comes (.error (.refusal cause)) stuck
  | misfit (cause : Misfit) : Comes (.error (.misfit cause)) stuck

namespace Comes

variable {result : Except Fault α} {verdict : Verdict}

theorem refused_iff (comes : Comes result verdict) :
    (∃ cause, result = .error (.request (.badConfig cause))) ↔ verdict = refused := by
  cases comes with
  | refusal cause => exact iff_of_true ⟨cause, rfl⟩ rfl
  | _ => exact iff_of_false (fun ⟨_, same⟩ => nomatch same) fun same => nomatch same

/-- A check that accepts is followed by the next one, and any other decides. -/
theorem bind {check : Except Fault α} {next : α → Except Fault β} {rest : List Verdict}
    (here : Comes check verdict)
    (later : ∀ answer, check = .ok answer → Comes (next answer) (first rest)) :
    Comes (check >>= next) (first (verdict :: rest)) := by
  cases here with
  | ok answer => exact later answer rfl
  | refusal cause => exact .refusal cause
  | encoding malformed => exact .encoding malformed
  | value cause => exact .value cause
  | misfit cause => exact .misfit cause

theorem bind_pure (comes : Comes result verdict) (f : α → β) :
    Comes (result >>= fun answer => pure (f answer)) verdict := by
  cases comes with
  | ok answer => exact .ok (f answer)
  | refusal cause => exact .refusal cause
  | encoding malformed => exact .encoding malformed
  | value cause => exact .value cause
  | misfit cause => exact .misfit cause

theorem mapM {check : α → Except Fault β} {verdict : α → Verdict}
    (each : ∀ item, Comes (check item) (verdict item)) (items : List α) :
    Comes (items.mapM check) (first (items.map verdict)) := by
  induction items with
  | nil => exact .ok []
  | cons item items ih =>
      rw [List.mapM_cons, List.map_cons]
      exact (each item).bind fun answer _ => ih.bind_pure (answer :: ·)

end Comes

/-- A refusal shows the value. -/
def showing (value : Value) : Verdict :=
  if value.isShowable then refused else stuck

/-- A value stands for a word. -/
def wording (value : Value) : Verdict :=
  if value.isShowable then accepted else stuck

/-- A value is one of some words. -/
def ofWords (words : List String) (value : Value) : Verdict :=
  if value ∈ words.map Value.text then accepted else showing value

/-- A value is a whole number, at least the given one. -/
def ofCount (least : Nat) : Value → Verdict
  | .int n => if (least : Int) ≤ n then accepted else showing (.int n)
  | value => showing value

/-- The markers of an entry are something with items. -/
def hasMarkers (fields : Mapping) : Bool :=
  match fields.getOr "markers" (.list []) with
  | .text _ | .scalar (.bytes _) | .list _ | .set _ | .object _ | .again _ => true
  | .scalar _ => false

/-- A value is an entry of the detectors. -/
def ofEntry (value : Value) : Verdict :=
  match value with
  | .object fields =>
      if (Mapping.getOrNull fields "glob").isTruthy then
        if hasMarkers fields then accepted else stuck
      else showing value
  | _ => showing value

/-- A value is a list of detectors. -/
def ofDetectors : Value → Verdict
  | .list entries => first (entries.map ofEntry)
  | _ => refused

/-- A value is a list. -/
def ofPriority : Value → Verdict
  | .list _ => accepted
  | _ => refused

/-- The items of a value stand for words. -/
def ofNames : Value → Verdict
  | .list names => first (names.map wording)
  | _ => accepted

/-- The verdicts on a configuration up to its detectors. -/
def front (config : Mapping) : List Verdict := [
  ofWords ["debug", "info"] (config.getOr "log_level" (.text "info")),
  ofPriority (config.getOr "symbol_sort_priority" (.list [])),
  ofWords (ManyPolicy.all.map ManyPolicy.word)
    (config.getOr "multiple_symbol_behavior" (.text "first")),
  ofWords (NotOpenPolicy.all.map NotOpenPolicy.word)
    (config.getOr "workspace_not_open_behavior" (.text "new-window")),
  ofWords (NotFoundPolicy.all.map NotFoundPolicy.word)
    (config.getOr "symbol_not_found_behavior" (.text "search")),
  ofCount 1 (config.getOr "retry_count" (.int 10)),
  ofCount 0 (config.getOr "retry_interval" (.int 500))]

/-- The verdicts on a configuration after its detectors. -/
def back (config : Mapping) : List Verdict := [
  ofNames (config.getOr "symbol_sort_priority" (.list [])),
  wording (config.getOr "editor_command" (.text "code"))]

/-- The verdicts on a configuration, in the order of the checks. -/
def all (config : Mapping) : List Verdict :=
  front config ++ ofDetectors (config.getOr "lang_detectors" (.list [])) :: back config

section Words

variable (options : List α) (word : α → String) (value : Value)

end Words

end Verdict

end Settings

end SymbolJump
