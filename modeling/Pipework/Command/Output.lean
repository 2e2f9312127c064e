import Pipework.Command.Error
import Pipework.Store.Basic

/-!
# What commands print

Results go to the standard output, summaries and notes to the standard error.  Every result has a
form for readers and one for programs, the latter being JSON in an envelope.
-/

namespace Pipework.Command

/-- What is printed, and the exit code. -/
structure Output where
  stdout : String := ""
  stderr : String := ""
  exitCode : Nat := 0
deriving Repr, DecidableEq

/-- Lines of text. -/
def linesText (lines : List String) : String := String.join (lines.map (· ++ "\n"))

/-- A JSON value over several lines. -/
def Output.ofJson (v : Json) : Output := { stdout := v.pretty ++ "\n" }

/-- A result in its envelope. -/
def Output.ofResult (data : Json) : Output := .ofJson (okEnvelope data)

/-! ## Lint reports -/

/-- The lines of a report: a verdict with the counts, and the findings by their weight. -/
def reportLines (r : Lint.Report) : List String :=
  let verdict := if r.isValid then "valid" else "invalid"
  s!"YAML is {verdict}: {r.stats.jobs} jobs, {r.stats.steps} steps, {r.stats.triggers} triggers" ::
    (r.errors.map (s!"  error: {·}") ++ r.warnings.map (s!"  warning: {·}") ++
      r.suggestions.map (s!"  suggestion: {·}"))

/-- Texts as JSON. -/
def textsJson (texts : List String) : Json := .list (texts.map .string)

/-- A count as JSON. -/
def countJson (n : Nat) : Json := .number (.natural n)

/-- A report as JSON. -/
def reportJson (r : Lint.Report) : Json :=
  .object
    [("isValid", .bool r.isValid), ("errors", textsJson r.errors),
     ("warnings", textsJson r.warnings),
     ("suggestions", textsJson r.suggestions),
     ("stats", .object
       [("jobs", countJson r.stats.jobs), ("steps", countJson r.stats.steps),
        ("triggers", countJson r.stats.triggers)])]

/-! ## Generated texts -/

/-- A generation as JSON, with the file it was written to or would be looked for in. -/
def generationJson (g : Generation) (destination : Option String) : Json :=
  .object
    [("platform", .string g.platform.name), ("outputPath", .string (destination.getD g.outputPath)),
     ("written", .bool destination.isSome), ("yaml", .string g.yaml),
     ("report", reportJson g.report)]

/-- A generation for readers: the text itself if no file has it, and the report beside it. -/
def generationOutput (g : Generation) (destination : Option String) : Output :=
  let lines := reportLines g.report
  match destination with
  | some path => { stderr := linesText (lines ++ [s!"Wrote {path}"]) }
  | none => { stdout := g.yaml, stderr := linesText lines }

/-! ## The history -/

/-- The width of the names of platforms in the history. -/
def platformWidth : Nat := 6

/-- The line of an entry of the history. -/
def historyLine (e : HistoryEntry) : String :=
  let platform := String.ofList (e.platform.name.toList.rightpad platformWidth ' ')
  s!"{e.timestamp.textToSecond}  {platform}  {e.jobCount} jobs"

/-! ## Failures -/

/-- A failed command: an envelope for programs, or a message and an advice for readers. -/
def Error.output (e : Error) (json : Bool) : Output :=
  let report :=
    if json then { stdout := e.envelope.compact ++ "\n" }
    else
      let advice := e.help.map (s!"  help: {·}")
      { stderr := linesText (s!"Error: {e.message}" :: advice.toList) : Output }
  { report with exitCode := e.exitCode }

end Pipework.Command
