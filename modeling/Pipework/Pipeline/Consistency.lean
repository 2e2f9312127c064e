import Pipework.Pipeline.Basic

/-!
# Consistency

What a pipeline should keep to and can still violate: names that stand for one thing only,
dependencies that exist, and filters that let something through.  Emitting never asks for it; a
front end does, and tells every violation in the order of the pipeline.
-/

namespace Pipework

/-- A violated rule. -/
inductive Violation where
  /-- Two jobs share a name. -/
  | duplicateJobName (name : String)
  /-- A job's name is empty or holds white space. -/
  | invalidJobName (name : String)
  /-- A job needs one that does not exist. -/
  | missingDependency (job dependency : String)
  /-- A job needs itself. -/
  | selfDependency (job : String)
  /-- Two steps of a job share an identifier. -/
  | duplicateStepId (job step : String)
  /-- Two variables of a job share a name. -/
  | duplicateEnvKey (job key : String)
  /-- Two secrets share a name. -/
  | duplicateSecret (key : String)
  /-- A secret's name is no identifier in upper case. -/
  | invalidSecretKey (key : String)
  /-- Pushes or pull requests count, but of no branch. -/
  | missingBranches
deriving Repr, DecidableEq

namespace Violation

/-- The wording of a violation. -/
def message : Violation → String
  | duplicateJobName name => s!"Job name '{name}' is used more than once"
  | invalidJobName name => s!"Job name '{name}' is empty or contains whitespace"
  | missingDependency job dependency => s!"Job '{job}' needs non-existent job '{dependency}'"
  | selfDependency job => s!"Job '{job}' depends on itself"
  | duplicateStepId job step => s!"Job '{job}' has more than one step with id '{step}'"
  | duplicateEnvKey job key => s!"Job '{job}' defines environment variable '{key}' more than once"
  | duplicateSecret key => s!"Secret '{key}' is declared more than once"
  | invalidSecretKey key => s!"Secret '{key}' must be an uppercase identifier"
  | missingBranches =>
    "Push/pull request triggers are enabled but no branches are configured"

end Violation

namespace Consistency

/-- The entries of a list that stand there once more, each where it does. -/
def repeats (earlier : List String) : List String → List String
  | [] => []
  | x :: rest =>
    if earlier.contains x then x :: repeats earlier rest else repeats (x :: earlier) rest

/-- Whether a name can be that of a job. -/
def isJobName (name : String) : Bool :=
  !name.toList.isEmpty && !name.toList.any Text.isSpace

/-- The characters of a secret's name after the first. -/
def isKeyChar (c : Char) : Bool := c.isUpper || c.isDigit || c == '_'

/-- Whether a name can be that of a secret. -/
def isSecretKey (key : String) : Bool :=
  (key.toList.head?.any fun c => c.isUpper || c == '_') && key.toList.all isKeyChar

/-- Violations of the triggers. -/
def ofTrigger (t : Trigger) : List Violation :=
  if (t.push || t.pullRequest) && t.branches.isEmpty then [.missingBranches] else []

/-- Violations of the secrets, given the names of the earlier ones. -/
def ofSecrets (earlier : List String) : List Secret → List Violation
  | [] => []
  | s :: rest =>
    (if isSecretKey s.key then [] else [.invalidSecretKey s.key]) ++
      (if earlier.contains s.key then [.duplicateSecret s.key] else []) ++
      ofSecrets (s.key :: earlier) rest

/-- Violations of one dependency of a job. -/
def ofNeed (names : List String) (job need : String) : List Violation :=
  if need == job then [.selfDependency job]
  else if names.contains need then []
  else [.missingDependency job need]

/-- Violations inside a job.  Steps without an identifier share none. -/
def ofContents (job : Job) : List Violation :=
  (repeats [] ((job.steps.map (·.id)).filter (· ≠ ""))).map (.duplicateStepId job.name) ++
    (repeats [] (job.envVars.map (·.key))).map (.duplicateEnvKey job.name)

/-- Violations of the jobs, given the names of all jobs and of the earlier ones. -/
def ofJobs (names earlier : List String) : List Job → List Violation
  | [] => []
  | job :: rest =>
    (if isJobName job.name then [] else [.invalidJobName job.name]) ++
      (if earlier.contains job.name then [.duplicateJobName job.name] else []) ++
      job.needs.flatMap (ofNeed names job.name) ++ ofContents job ++
      ofJobs names (job.name :: earlier) rest

end Consistency

/-- The violations of a pipeline, in its order. -/
def Pipeline.violations (p : Pipeline) : List Violation :=
  Consistency.ofTrigger p.triggers ++ Consistency.ofSecrets [] p.secrets ++
    Consistency.ofJobs (p.jobs.map (·.name)) [] p.jobs

end Pipework
