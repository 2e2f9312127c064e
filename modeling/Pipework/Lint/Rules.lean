import Pipework.Lint.Line
import Pipework.Lint.Pattern
import Pipework.Lint.Report

/-!
# Lint rules

Each rule reads the scanned lines and lists its findings; no rule depends on another.  Some apply to
every document, some to those with a top-level `on:` or `stages:`.
-/

namespace Pipework.Lint

open Text

/-- A finding on a line. -/
def Line.finds {α : Type} (l : Line) (cause : α) : Finding α := ⟨some l.number, cause⟩

/-! ## Layout -/

/-- Whether a rule of layout looks at the line. -/
def isLaidOut (l : Line) : Bool := !l.isBlank && !l.inBlock

/-- Tabs anywhere, and malformed keys outside block scalars. -/
def lineProblems (l : Line) : List (Finding Problem) :=
  (if l.raw.contains '\t' then [l.finds .tab] else []) ++
    (if isLaidOut l && !l.isComment && !hasValidShape l.trimmed then
      [l.finds .malformedKey] else [])

/-- Odd indentation outside block scalars. -/
def lineRisks (l : Line) : List (Finding Risk) :=
  if isLaidOut l && l.indent % 2 == 1 then [l.finds (.oddIndent l.indent)] else []

/-! ## Workflows with `on:` -/

/-- The oldest supported major versions of actions. -/
def actionMinimums : List (String × Nat) :=
  [("actions/checkout", 4), ("actions/setup-node", 4), ("actions/cache", 3),
    ("actions/upload-artifact", 4), ("actions/download-artifact", 4), ("actions/setup-python", 5)]

/-- The major version to use instead of one that is too old. -/
def recommendedPin (action : String) : Nat :=
  if action == "actions/setup-python" then 5 else 4

/-- The risk of one pinned action. -/
def pinRisk (action digits : List Char) : Option Risk :=
  match number32? digits with
  | some major =>
    let name := String.ofList action
    if actionMinimums.any fun (known, least) => known == name && major < least then
      some (.deprecatedAction name major (recommendedPin name))
    else none
  | none => none

/-- Actions pinned to versions that are too old. -/
def pinRisks (l : Line) : List (Finding Risk) :=
  if l.isComment then []
  else
    (allMatches actionPin 0 none l.trimmed).filterMap fun (action, digits) =>
      (pinRisk action digits).map l.finds

/-- The keyed lines whose key an earlier one has already. -/
def repeatedKeys (seen : List (List Char)) : List Line → List (Finding Risk)
  | [] => []
  | l :: rest =>
    match l.key? with
    | some key =>
      if seen.contains key then
        l.finds (.duplicateTrigger (String.ofList key)) :: repeatedKeys seen rest
      else repeatedKeys (key :: seen) rest
    | none => repeatedKeys seen rest

/-- Triggers that are given twice, at the depth of the first of them. -/
def triggerRisks (lines : List Line) : List (Finding Risk) :=
  let children := blockChildren lines "on"
  match children.find? Line.isStructural with
  | some first => repeatedKeys [] (children.filter fun l => l.indent == first.indent)
  | none => []

/-- A workflow needs jobs. -/
def workflowProblems (lines : List Line) : List (Finding Problem) :=
  if lines.any (·.hasKey "jobs") then [] else [⟨none, .missingJobs⟩]

/-- A workflow profits from timeouts and caches. -/
def workflowAdvice (text : List Char) (lines : List Line) : List Advice :=
  (if lines.any (·.hasKey "timeout-minutes") then [] else [.addTimeout]) ++
    (if contains "cache".toList (text.map Char.toLower) then [] else [.addCache])

/-! ## Configurations with `stages:` -/

/-- The stages listed in brackets after their key. -/
def flowStages? (inline : List Char) : Option (List (List Char)) :=
  match inline with
  | '[' :: rest =>
    if rest.getLast? == some ']' then
      some (((fields ',' rest.dropLast).map fun s => Line.unquote (trim s)).filter (!·.isEmpty))
    else none
  | _ => none

/-- The declared stages. -/
def declaredStages (lines : List Line) : List (List Char) :=
  match lines.find? fun l => l.isTopLevel && l.hasKey "stages" with
  | some header =>
    let inline := ((header.value?).map fun v => trim (withoutComment v)).getD []
    match flowStages? inline with
    | some stages => stages
    | none =>
      ((blockChildren lines "stages").filter Line.isStructural).filterMap fun l =>
        (['-', ' '].isPrefixOf? l.trimmed).map fun s => Line.unquote (trim (withoutComment s))
  | none => []

/-- The stage that a line names, if it is not empty. -/
def stageOf? (l : Line) : Option (List Char) :=
  if l.hasKey "stage" then
    ((l.value?).map fun v => Line.unquote (trim (withoutComment v))).filter (!·.isEmpty)
  else none

/-- Stages that are used without being declared. -/
def stageProblems (lines : List Line) : List (Finding Problem) :=
  let declared := declaredStages lines
  lines.filterMap fun l =>
    match stageOf? l with
    | some stage =>
      if declared.contains stage then none
      else some (l.finds (.undeclaredStage (String.ofList stage)))
    | none => none

/-- A configuration profits from rules. -/
def stageAdvice (lines : List Line) : List Advice :=
  if lines.any fun l => l.hasKey "rules" || l.hasKey "only" || l.hasKey "except" then []
  else [.addRules]

/-! ## Every document -/

/-- The variables that may hold secrets: those set from a secret or from another variable. -/
def secretVariables (lines : List Line) : List (List Char) :=
  (["env", "variables"].flatMap (blockChildren lines)).filterMap fun l =>
    if (l.value?).any fun v => contains "secrets.".toList v || v.contains '$' then l.key? else none

/-- Whether a line prints a secret. -/
def leaks (secrets : List (List Char)) (l : Line) : Bool :=
  !l.isComment && mentionsEcho l.trimmed &&
    (contains "$\x7b\x7b secrets.".toList l.trimmed || secrets.any (refersTo · l.trimmed))

/-- Lines that print secrets. -/
def echoRisks (lines : List Line) : List (Finding Risk) :=
  let secrets := secretVariables lines
  (lines.filter (leaks secrets)).map (·.finds .secretEcho)

/-- The last release of Node.js whose life has ended. -/
def lastOldNode : Nat := 18

/-- The last minor release of Python 3 whose life has ended. -/
def lastOldPython3 : Nat := 9

/-- The risk of a Node.js version. -/
def nodeRisk (s : List Char) : Option Risk :=
  match firstMatch (runtimeVersion "node") none s with
  | some (major, _) => ((number32? major).filter (· ≤ lastOldNode)).map .oldNode
  | none => none

/-- Whether a version of Python has reached the end of its life. -/
def isOldPython (major : Nat) (minor : Option Nat) : Bool :=
  major == 2 || (major == 3 && minor.any (· ≤ lastOldPython3))

/-- The risk of a Python version. -/
def pythonRisk (s : List Char) : Option Risk :=
  match firstMatch (runtimeVersion "python") none s with
  | some (major, minor) =>
    match number32? major with
    | some major =>
      let minor := minor.bind number32?
      if isOldPython major minor then some (.oldPython major minor) else none
    | none => none
  | none => none

/-- Runtimes whose life has ended. -/
def runtimeRisks (l : Line) : List (Finding Risk) :=
  if l.isComment then []
  else ((nodeRisk l.trimmed).toList ++ (pythonRisk l.trimmed).toList).map l.finds

/-- Jobs for several operating systems are better a matrix. -/
def matrixAdvice (text : List Char) : List Advice :=
  if contains "ubuntu-latest".toList text && contains "windows-latest".toList text &&
      !contains "matrix:".toList text then
    [.useMatrix]
  else []

/-! ## Counts -/

/-- Top-level keys of a configuration that are no jobs. -/
def gitlabKeywords : List String :=
  ["stages", "variables", "default", "include", "workflow", "image", "services", "cache",
    "before_script", "after_script"]

/-- Top-level keys of a workflow that are no jobs. -/
def githubKeywords : List String := ["on", "env", "permissions", "concurrency", "defaults"]

/-- Whether a top-level key names a job. -/
def namesJob (key : List Char) : Bool :=
  key.head? != some '.' &&
    !(gitlabKeywords ++ githubKeywords).any fun keyword => keyword.toList == key

/-- The keys right below `jobs:`, or without it the top-level keys that name jobs. -/
def countJobs (lines : List Line) : Nat :=
  match lines.dropWhile fun l => !(l.isTopLevel && l.hasKey "jobs") with
  | _ :: rest =>
    ((rest.filter Line.isStructural).takeWhile fun l => 0 < l.indent).countP fun l =>
      l.indent == 2 && l.isBareKey
  | [] => lines.countP fun l => l.isTopLevel && l.isBareKey && l.key?.any namesJob

/-- Whether a line opens a step: a dash, then `name:`. -/
def opensStep (l : Line) : Bool :=
  match l.trimmed with
  | '-' :: rest => "name:".toList.isPrefixOf (trimStart rest)
  | _ => false

/-- The counts of a document. -/
def stats (lines : List Line) : Stats where
  jobs := countJobs lines
  steps := lines.countP fun l => l.isStructural && opensStep l
  triggers := lines.countP fun l => l.hasKey "on" || l.hasKey "push" || l.hasKey "pull_request"

/-! ## All rules together -/

/-- Lint the lines of a document. -/
def reportLines (text : List Char) (lines : List Line) : Report :=
  let isWorkflow := hasTopLevelKey lines "on"
  let isStaged := hasTopLevelKey lines "stages"
  { problems :=
      lines.flatMap lineProblems ++
        (if isWorkflow then workflowProblems lines else []) ++
        (if isStaged then stageProblems lines else [])
    risks :=
      lines.flatMap lineRisks ++
        (if isWorkflow then lines.flatMap pinRisks ++ triggerRisks lines else []) ++
        echoRisks lines ++ lines.flatMap runtimeRisks
    advice :=
      (if isWorkflow then workflowAdvice text lines else []) ++
        (if isStaged then stageAdvice lines else []) ++ matrixAdvice text
    stats := stats lines }

/-- Lint a document.  A blank one has nothing to report. -/
def report (text : List Char) : Report :=
  if isBlank text then {} else reportLines text (scan text)

end Pipework.Lint
