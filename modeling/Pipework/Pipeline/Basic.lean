import Pipework.Pipeline.Slug
import Pipework.Text.Lowercase

/-!
# Pipelines

A continuous-integration pipeline independent of the platform it runs on: what starts it, the
credentials it refers to, and its jobs in order, each with its steps.  Every field has a default, so
that a pipeline is described by what differs from it.
-/

namespace Pipework

/-! ## Platforms -/

/-- The platforms a pipeline can be written for. -/
inductive Platform where
  | github
  | gitlab
deriving Repr, DecidableEq, Inhabited

/-- The name of a platform, which is also the name of its format. -/
def Platform.name : Platform → String
  | .github => "github"
  | .gitlab => "gitlab"

/-- A platform name that is none, in lower case. -/
structure UnknownPlatform where
  name : String
deriving Repr, DecidableEq

/-- The report of an unknown platform name. -/
def UnknownPlatform.message (e : UnknownPlatform) : String :=
  s!"Unknown platform '{e.name}'. Expected 'github' or 'gitlab'"

/-- The platform with a name, in any case, with blanks around it or with the product's suffix. -/
def Platform.ofName (text : String) : Except UnknownPlatform Platform :=
  match String.ofList (Text.lowercase (Text.trim text.toList)) with
  | "github" => .ok .github
  | "github-actions" => .ok .github
  | "gitlab" => .ok .gitlab
  | "gitlab-ci" => .ok .gitlab
  | other => .error ⟨other⟩

/-! ## Triggers -/

/-- The events that start a pipeline. -/
structure Trigger where
  /-- Pushes to branches. -/
  push : Bool := true
  pullRequest : Bool := false
  /-- Pushes of version tags. -/
  tags : Bool := false
  /-- A schedule; none if it is blank. -/
  cron : String := ""
  /-- The branches whose pushes and pull requests count. -/
  branches : List String := ["main"]
  /-- The paths whose changes count in a push. -/
  paths : List String := []
  workflowDispatch : Bool := false
deriving Repr, DecidableEq, Inhabited

/-- No event at all. -/
def Trigger.none : Trigger := { push := false, branches := [] }

/-- Whether a schedule is set. -/
def Trigger.hasSchedule (t : Trigger) : Bool :=
  !Text.isBlank t.cron.toList

/-- Whether anything starts the pipeline. -/
def Trigger.any (t : Trigger) : Bool :=
  t.push || t.pullRequest || t.tags || t.hasSchedule || t.workflowDispatch

/-! ## Steps -/

/-- A credential that the platform holds.  Only its name is ever written. -/
structure Secret where
  key : String := ""
  description : String := ""
deriving Repr, DecidableEq, Inhabited

/-- What the content of a step is. -/
inductive StepKind where
  /-- A shell script. -/
  | run
  /-- A reference to an action, with lines of configuration below it. -/
  | uses
deriving Repr, DecidableEq, Inhabited

/-- One action of a job. -/
structure Step where
  id : String := ""
  name : String := ""
  kind : StepKind := .run
  content : String := ""
  condition : Option String := .none
  continueOnError : Option Bool := .none
deriving Repr, DecidableEq, Inhabited

namespace Step

/-- A step whose identifier comes from its name. -/
def named (kind : StepKind) (name content : String) : Step :=
  { id := String.ofList (slug name.toList), name, kind, content }

/-- A shell step. -/
def run (name content : String) : Step := named .run name content

/-- A step that refers to an action. -/
def uses (name content : String) : Step := named .uses name content

/-- Whether the step is a shell step. -/
def isRun (s : Step) : Bool := s.kind == .run

end Step

/-! ## Matrices -/

/-- The axes of a build matrix in the order of their declaration.  No two have one name. -/
structure Matrix where
  axes : List (String × List String)
  nodup : (axes.map (·.1)).Nodup
deriving Repr, DecidableEq

namespace Matrix

/-- The matrix without axes. -/
def empty : Matrix := ⟨[], List.nodup_nil⟩

/-- Axes after one of them got new values, or was added at the end. -/
def setAxis (name : String) (values : List String) :
    List (String × List String) → List (String × List String)
  | [] => [(name, values)]
  | (n, vs) :: rest =>
    if n = name then (name, values) :: rest else (n, vs) :: setAxis name values rest

theorem mem_names_setAxis {name x : String} {values : List String}
    {axes : List (String × List String)} :
    x ∈ (setAxis name values axes).map (·.1) ↔ x = name ∨ x ∈ axes.map (·.1) := by
  induction axes with
  | nil => simp [setAxis]
  | cons a rest ih =>
    obtain ⟨n, vs⟩ := a
    by_cases h : n = name
    · simp [setAxis, h]
    · simp only [setAxis, h, if_false, List.map_cons, List.mem_cons, ih]
      constructor <;> rintro (h | h | h) <;> simp [h]

theorem nodup_setAxis {name : String} {values : List String} {axes : List (String × List String)}
    (h : (axes.map (·.1)).Nodup) : ((setAxis name values axes).map (·.1)).Nodup := by
  induction axes with
  | nil => simp [setAxis]
  | cons a rest ih =>
    obtain ⟨n, vs⟩ := a
    rw [List.map_cons, List.nodup_cons] at h
    by_cases hn : n = name
    · subst hn
      simpa [setAxis] using h
    · simp only [setAxis, hn, if_false, List.map_cons, List.nodup_cons]
      exact ⟨fun hm => (mem_names_setAxis.1 hm).elim hn h.1, ih h.2⟩

/-- Give an axis its values.  A known axis keeps its place. -/
def insert (m : Matrix) (name : String) (values : List String) : Matrix :=
  ⟨setAxis name values m.axes, nodup_setAxis m.nodup⟩

end Matrix

/-- The matrix of a job and what happens when one of its runs fails. -/
structure Strategy where
  matrix : Option Matrix := .none
  /-- Whether the first failure cancels the other runs. -/
  failFast : Option Bool := .none
deriving Repr, DecidableEq

namespace Strategy

/-- The axes that have values. -/
def axes (s : Strategy) : List (String × List String) :=
  ((s.matrix.map Matrix.axes).getD []).filter fun (_, values) => !values.isEmpty

/-- Whether some axis has values. -/
def hasMatrix (s : Strategy) : Bool := !s.axes.isEmpty

/-- Whether there is nothing to write. -/
def isEmpty (s : Strategy) : Bool := !s.hasMatrix && s.failFast.isNone

end Strategy

/-! ## Jobs and pipelines -/

/-- A variable of a job's environment. -/
structure EnvVar where
  key : String := ""
  value : String := ""
deriving Repr, DecidableEq, Inhabited

/-- The runner of a job that names none. -/
def defaultRunner : String := "ubuntu-latest"

/-- One unit of execution. -/
structure Job where
  id : String := ""
  /-- The job's key in the written file. -/
  name : String := ""
  runsOn : String := defaultRunner
  dockerImage : Option String := .none
  steps : List Step := []
  /-- Whether dependencies are cached. -/
  cache : Bool := false
  envVars : List EnvVar := []
  /-- The names of the jobs that come first. -/
  needs : List String := []
  /-- A limit in minutes. -/
  timeout : Option UInt32 := .none
  strategy : Option Strategy := .none
deriving Repr, DecidableEq, Inhabited

namespace Job

/-- A job whose identifier comes from its name. -/
def named (name : String) : Job :=
  { id := String.ofList (slug name.toList), name }

/-- Give a matrix axis its values. -/
def withAxis (job : Job) (name : String) (values : List String) : Job :=
  let strategy := job.strategy.getD {}
  let matrix := (strategy.matrix.getD Matrix.empty).insert name values
  { job with strategy := some { strategy with matrix := some matrix } }

/-- Set whether the first failing run cancels the others. -/
def withFailFast (job : Job) (failFast : Bool) : Job :=
  { job with strategy := some { job.strategy.getD {} with failFast := some failFast } }

/-- The strategy, if it has anything to write. -/
def effectiveStrategy (job : Job) : Option Strategy :=
  job.strategy.filter (!·.isEmpty)

end Job

/-- A whole pipeline. -/
structure Pipeline where
  platform : Platform := .github
  triggers : Trigger := {}
  secrets : List Secret := []
  jobs : List Job := []
deriving Repr, DecidableEq, Inhabited

namespace Pipeline

/-- The first job with a name. -/
def job? (p : Pipeline) (name : String) : Option Job :=
  p.jobs.find? (·.name == name)

/-- The number of steps in all jobs. -/
def stepCount (p : Pipeline) : Nat :=
  (p.jobs.flatMap (·.steps)).length

end Pipeline

end Pipework
