import Pipework.Text.Lowercase

/-!
# Logging options

The formats and the levels of log lines, and the filter that a level stands for.
-/

namespace Pipework.Command

/-- The forms of log lines. -/
inductive LogFormat where
  | pretty
  | compact
  | json
deriving Repr, DecidableEq

/-- The levels of log lines, of which each shows the later ones too. -/
inductive LogLevel where
  | trace
  | debug
  | info
  | warn
  | error
deriving Repr, DecidableEq

/-- The formats with their names. -/
def LogFormat.names : List (String × LogFormat) :=
  [("pretty", pretty), ("compact", compact), ("json", json)]

/-- The format with a name, in any case. -/
def LogFormat.ofName? (text : String) : Option LogFormat :=
  names.lookup (String.ofList (Text.lowercase text.toList))

/-- The report of an unknown format. -/
def LogFormat.unknown (text : String) : String := s!"Unknown tracing format: {text}"

/-- The levels with their names. -/
def LogLevel.names : List (String × LogLevel) :=
  [("trace", trace), ("debug", debug), ("info", info), ("warn", warn), ("error", error)]

/-- The name of a level. -/
def LogLevel.name : LogLevel → String
  | trace => "trace"
  | debug => "debug"
  | info => "info"
  | warn => "warn"
  | error => "error"

/-- The value with a name among named ones, perhaps in any case of its ASCII letters. -/
def named? {α : Type} (names : List (String × α)) (ignoreCase : Bool) (text : String) : Option α :=
  if ignoreCase then names.lookup text.toLower else names.lookup text

/-- The report of an unknown level. -/
def LogLevel.unknown (text : String) : String := s!"invalid variant: {text}"

/-- The parts of the program that write log lines. -/
def logTargets : List String :=
  ["cigen", "cigen_core", "cigen_ci", "cigen_github", "cigen_gitlab"]

/-- The filter that shows a level everywhere. -/
def LogLevel.directive (level : LogLevel) : String :=
  String.intercalate "," (logTargets.map fun target => s!"{target}={level.name}")

end Pipework.Command
