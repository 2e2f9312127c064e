import Pipework.Layout
import Pipework.Pipeline.Basic
import Pipework.Text.Bytes
import Pipework.Yaml.Scalar

/-!
# GitHub workflows

A pipeline as a GitHub Actions workflow: its triggers under `on:`, its secrets as environment
variables, and its jobs with their steps.  A push of tags can be an entry of its own beside the push
of branches, as which most readers keep only the last of the two, or be merged into it.
-/

namespace Pipework.Emit

open Layout Yaml

namespace Github

/-- How the push of tags stands beside the push of branches. -/
inductive TagPush where
  /-- A second `push:` key. -/
  | separate
  /-- A `tags:` line in the one `push:` entry. -/
  | merged
deriving Repr, DecidableEq

/-- The tags that count as versions. -/
def tagPattern : String := "v*"

/-- The name of every workflow. -/
def workflowName : String := "CI Pipeline"

/-- An indented key whose value is a list of names. -/
def names (level : Nat) (name : String) (items : List String) : Line :=
  listEntry level name.toList (items.map String.toList)

/-- An entry with the value as it stands. -/
def plain (level : Nat) (name value : String) : Line :=
  entry level name.toList value.toList

/-- An entry with a string as its value. -/
def value (level : Nat) (name : String) (text : String) : Line :=
  entry level name.toList (scalar text.toList)

/-- A schedule between quotes. -/
def quotedCron (cron : List Char) : List Char :=
  if cron.contains '\n' then Text.doubleQuoted cron else Text.singleQuoted cron

/-- The entry for pushes, with the tags in it if the styles are merged. -/
def pushLines (style : TagPush) (t : Trigger) : List Line :=
  if t.push then
    [opening 1 "push", names 2 "branches" t.branches] ++
      (if t.paths.isEmpty then [] else [names 2 "paths" t.paths]) ++
      (if style == .merged && t.tags then [names 2 "tags" [tagPattern]] else [])
  else []

/-- The entry for pushes of tags, if it is not part of the entry for pushes. -/
def tagLines (style : TagPush) (t : Trigger) : List Line :=
  if t.tags && !(style == .merged && t.push) then
    [opening 1 "push", names 2 "tags" [tagPattern]]
  else []

/-- What starts the workflow. -/
def triggerLines (style : TagPush) (t : Trigger) : List Line :=
  if t.any then
    [opening 0 "on"] ++ pushLines style t ++
      (if t.pullRequest then [opening 1 "pull_request", names 2 "branches" t.branches] else []) ++
      tagLines style t ++
      (if t.hasSchedule then
        [opening 1 "schedule",
          entry 2 "- cron".toList (quotedCron (Text.trim t.cron.toList))]
      else []) ++
      (if t.workflowDispatch then [opening 1 "workflow_dispatch"] else []) ++ [blank]
  else []

/-- The reference to a secret of the repository. -/
def secretReference (key : String) : String :=
  "$\x7b\x7b secrets." ++ key ++ " \x7d\x7d"

/-- The secrets as environment variables. -/
def secretLines (secrets : List Secret) : List Line :=
  if secrets.isEmpty then []
  else
    opening 0 "env" :: secrets.map (fun s => plain 1 s.key (secretReference s.key)) ++ [blank]

/-- What identifies a cache of dependencies. -/
def cacheKey : String :=
  "$\x7b\x7b runner.os \x7d\x7d-cache-$\x7b\x7b hashFiles('**/package-lock.json', '**/Cargo.lock', " ++
    "'**/requirements*.txt') \x7d\x7d"

/-- The step that restores and saves a cache of dependencies. -/
def cacheLines : List Line :=
  [plain 3 "- name" "Cache dependencies", plain 4 "uses" "actions/cache@v4", opening 4 "with",
    plain 5 "path" "~/.cache", plain 5 "key" cacheKey] ++
    block 5 "restore-keys".toList "$\x7b\x7b runner.os \x7d\x7d-cache-".toList

/-- The bytes of white space at the start of a line. -/
def margin (line : List Char) : Nat :=
  Text.byteCount (line.takeWhile Text.isSpace)

/-- The line without its first `width` bytes, unless that would cut a character in two: then it
loses all white space at its start. -/
def dropBytes (line : List Char) : Nat → List Char → List Char
  | 0, rest => rest
  | _ + 1, [] => Text.trimStart line
  | width + 1, c :: rest =>
    if c.utf8Size ≤ width + 1 then dropBytes line (width + 1 - c.utf8Size) rest
    else Text.trimStart line
  termination_by _ rest => rest.length

/-- Lines of configuration moved to the left as far as their least indented one allows. -/
def dedent (lines : List (List Char)) : List (List Char) :=
  let width := ((lines.map margin).min?).getD 0
  lines.map fun line => dropBytes line width line

/-- An action with its configuration: the first line of the content names the action. -/
def usesLines (content : List Char) : List Line :=
  let lines := Text.lines content
  let action := Text.trim (lines.headD [])
  let config := lines.tail.filter (!Text.isBlank ·)
  entry 4 "uses".toList action :: (dedent config).map (⟨4, ·⟩)

/-- One step. -/
def stepLines (s : Step) : List Line :=
  value 3 "- name" s.name ::
    ((s.condition.map (value 4 "if")).toList ++
      (if s.continueOnError == some true then [plain 4 "continue-on-error" "true"] else []) ++
      match s.kind with
      | .uses => usesLines s.content.toList
      | .run => block 4 "run".toList s.content.toList)

/-- The matrix of a job and its failure policy. -/
def strategyLines (s : Strategy) : List Line :=
  opening 2 "strategy" ::
    ((if s.hasMatrix then
        opening 3 "matrix" :: s.axes.map fun (axis, values) =>
          listEntry 4 (scalar axis.toList) (values.map String.toList)
      else []) ++
      (s.failFast.map fun b => plain 3 "fail-fast" (toString b)).toList)

/-- The environment of a job. -/
def envLines (vars : List EnvVar) : List Line :=
  if vars.isEmpty then []
  else
    opening 2 "env" ::
      vars.map fun v => entry 3 (scalar v.key.toList) (scalar v.value.toList)

/-- One job. -/
def jobLines (job : Job) : List Line :=
  key 1 (scalar job.name.toList) ::
    ((if job.runsOn.isEmpty then [] else [value 2 "runs-on" job.runsOn]) ++
      (job.timeout.map fun n => plain 2 "timeout-minutes" (toString n.toNat)).toList ++
      (if job.needs.isEmpty then [] else [names 2 "needs" job.needs]) ++
      (job.effectiveStrategy.map strategyLines).getD [] ++
      (job.dockerImage.map (value 2 "container")).toList ++
      envLines job.envVars ++
      [opening 2 "steps"] ++
      (if job.cache then cacheLines else []) ++
      job.steps.flatMap stepLines ++ [blank])

/-- The workflow of a pipeline. -/
def document (style : TagPush) (p : Pipeline) : List Line :=
  [plain 0 "name" workflowName, blank] ++ triggerLines style p.triggers ++ secretLines p.secrets ++
    opening 0 "jobs" :: p.jobs.flatMap jobLines

end Github

/-- The text of a pipeline's GitHub workflow. -/
def github (style : Github.TagPush) (p : Pipeline) : String :=
  String.ofList (write (Github.document style p))

end Pipework.Emit
