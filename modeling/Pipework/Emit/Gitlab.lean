import Pipework.Layout
import Pipework.Pipeline.Basic
import Pipework.Yaml.Scalar

/-!
# GitLab pipelines

A pipeline as a GitLab configuration.  Every job is a stage of its own, in the order of the jobs.
Only shell steps have a counterpart there, the lines of their scripts; steps that refer to actions
are left out.
-/

namespace Pipework.Emit

open Layout Yaml

namespace Gitlab

/-- The directories that a job with a cache keeps. -/
def cachePaths : List String := ["node_modules/", ".cache/"]

/-- An entry of a list. -/
def item (level : Nat) (text : List Char) : Line :=
  ⟨level, '-' :: ' ' :: text⟩

/-- The secrets as variables of the whole pipeline. -/
def secretLines (secrets : List Secret) : List Line :=
  if secrets.isEmpty then []
  else
    opening 0 "variables" ::
      secrets.map (fun s => entry 1 s.key.toList ('$' :: s.key.toList)) ++ [blank]

/-- The stages, one for each job. -/
def stageLines (jobs : List Job) : List Line :=
  (if jobs.isEmpty then [entry 0 "stages".toList ['[', ']']]
    else opening 0 "stages" :: jobs.map fun j => item 1 (scalar j.name.toList)) ++ [blank]

/-- The condition under which a push to the first of the branches runs a job. -/
def pushCondition (branches : List String) : List Char :=
  match branches with
  | [] => "$CI_PIPELINE_SOURCE == \"push\"".toList
  | branch :: _ =>
    "$CI_PIPELINE_SOURCE == \"push\" && $CI_COMMIT_BRANCH == ".toList ++
      Text.doubleQuoted branch.toList

/-- The conditions under which jobs run, one for each kind of event. -/
def conditions (t : Trigger) : List (List Char) :=
  (if t.push then [pushCondition t.branches] else []) ++
    (if t.pullRequest then ["$CI_PIPELINE_SOURCE == \"merge_request_event\"".toList] else []) ++
    (if t.tags then ["$CI_COMMIT_TAG".toList] else [])

/-- The conditions between quotes, as a job's rules hold them. -/
def rules (t : Trigger) : List (List Char) :=
  (conditions t).map Text.singleQuoted

/-- The matrix of a job as one list entry that holds every axis. -/
def matrixLines (s : Strategy) : List Line :=
  if s.hasMatrix then
    let entries := s.axes.map fun (axis, values) =>
      scalar axis.toList ++ ':' :: ' ' :: Text.flowList (values.map String.toList)
    [opening 1 "parallel", opening 2 "matrix"] ++
      (entries.take 1).map (item 3) ++ (entries.drop 1).map (⟨4, ·⟩)
  else []

/-- The lines of a shell step's script, without those that are blank. -/
def scriptOf (s : Step) : List (List Char) :=
  if s.isRun then ((Text.lines s.content.toList).map Text.trim).filter (!·.isEmpty) else []

/-- One job under the rules of the pipeline. -/
def jobLines (rules : List (List Char)) (job : Job) : List Line :=
  let name := scalar job.name.toList
  [key 0 name, entry 1 "stage".toList name] ++
    (job.dockerImage.map fun image => entry 1 "image".toList (scalar image.toList)).toList ++
    (job.timeout.map fun n => entry 1 "timeout".toList (toString n.toNat ++ "m").toList).toList ++
    (if job.needs.isEmpty then []
      else [listEntry 1 "needs".toList (job.needs.map String.toList)]) ++
    (if job.cache then
      [opening 1 "cache", opening 2 "paths"] ++ cachePaths.map fun p => item 3 p.toList
    else []) ++
    (if job.envVars.isEmpty then []
      else opening 1 "variables" :: job.envVars.map fun v =>
        entry 2 (scalar v.key.toList) (scalar v.value.toList)) ++
    (job.effectiveStrategy.map matrixLines).getD [] ++
    (if rules.isEmpty then []
      else opening 1 "rules" :: rules.map fun rule => item 2 ("if: ".toList ++ rule)) ++
    [opening 1 "script"] ++
    (job.steps.flatMap scriptOf).map (fun line => item 2 (scalar line)) ++ [blank]

/-- The configuration of a pipeline. -/
def document (p : Pipeline) : List Line :=
  secretLines p.secrets ++ stageLines p.jobs ++ p.jobs.flatMap (jobLines (rules p.triggers))

end Gitlab

/-- The text of a pipeline's GitLab configuration. -/
def gitlab (p : Pipeline) : String :=
  String.ofList (write (Gitlab.document p))

end Pipework.Emit
