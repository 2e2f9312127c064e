import Pipework.Json.Codec
import Pipework.Pipeline.Basic

/-!
# Pipelines as JSON

The names and the order of the fields of a pipeline and its parts.  Every field may be left out when
reading, and then has its default; a field that may be absent is written only if it is there.
-/

namespace Pipework

open Json (Codec)
open Json.Codec (field)

/-- The name of a record type in reports.  A list that is too short never occurs where every field
has a default. -/
def typeName (name : String) (fields : Nat) : Json.Codec.RecordName :=
  ⟨s!"struct {name}", s!"struct {name} with {fields} elements"⟩

/-- A field that is `null` or absent when there is no value, and then not written. -/
def optionalField {σ α : Type} (name : String) (c : Codec α) (get : σ → Option α)
    (set : Option α → σ → σ) : Codec.Field σ :=
  (field name c.option get set).omitIf fun s => (get s).isNone

/-- A platform by its name. -/
def Platform.codec : Codec Platform :=
  .choice [("github", .github), ("gitlab", .gitlab)] Platform.name

/-- The word for what the content of a step is. -/
def StepKind.name : StepKind → String
  | .run => "run"
  | .uses => "uses"

/-- The kind of a step by its word. -/
def StepKind.codec : Codec StepKind :=
  .choice [("run", .run), ("uses", .uses)] StepKind.name

/-- The events that start a pipeline.  An empty filter on paths is not written. -/
def Trigger.codec : Codec Trigger :=
  .record (typeName "Trigger" 7) {}
    [field "push" .bool (·.push) (fun x t => { t with push := x }),
     field "pullRequest" .bool (·.pullRequest) (fun x t => { t with pullRequest := x }),
     field "tags" .bool (·.tags) (fun x t => { t with tags := x }),
     field "cron" .string (·.cron) (fun x t => { t with cron := x }),
     field "branches" (.list .string) (·.branches) (fun x t => { t with branches := x }),
     (field "paths" (.list .string) (·.paths) (fun x t => { t with paths := x })).omitIf
       (·.paths.isEmpty),
     field "workflowDispatch" .bool (·.workflowDispatch)
       (fun x t => { t with workflowDispatch := x })]

/-- A credential. -/
def Secret.codec : Codec Secret :=
  .record (typeName "Secret" 2) {}
    [field "key" .string (·.key) (fun x s => { s with key := x }),
     field "description" .string (·.description) (fun x s => { s with description := x })]

/-- A step of a job. -/
def Step.codec : Codec Step :=
  .record (typeName "Step" 6) {}
    [field "id" .string (·.id) (fun x s => { s with id := x }),
     field "name" .string (·.name) (fun x s => { s with name := x }),
     field "type" StepKind.codec (·.kind) (fun x s => { s with kind := x }),
     field "content" .string (·.content) (fun x s => { s with content := x }),
     optionalField "condition" .string (·.condition) (fun x s => { s with condition := x }),
     optionalField "continueOnError" .bool (·.continueOnError)
       (fun x s => { s with continueOnError := x })]

/-- A variable of a job's environment. -/
def EnvVar.codec : Codec EnvVar :=
  .record (typeName "EnvVar" 2) {}
    [field "key" .string (·.key) (fun x v => { v with key := x }),
     field "value" .string (·.value) (fun x v => { v with value := x })]

/-- The axes of a matrix as the fields of an object. -/
def Matrix.codec : Codec Matrix :=
  .table (.list .string) .empty .insert (·.axes)

/-- The matrix of a job and what happens when a run fails. -/
def Strategy.codec : Codec Strategy :=
  .record (typeName "Strategy" 2) {}
    [optionalField "matrix" Matrix.codec (·.matrix) (fun x s => { s with matrix := x }),
     optionalField "failFast" .bool (·.failFast) (fun x s => { s with failFast := x })]

/-- A limit in minutes. -/
def minutesCodec : Codec UInt32 :=
  (Codec.natural "u32" UInt32.size).map UInt32.ofNat UInt32.toNat

/-- A job. -/
def Job.codec : Codec Job :=
  .record (typeName "Job" 10) {}
    [field "id" .string (·.id) (fun x j => { j with id := x }),
     field "name" .string (·.name) (fun x j => { j with name := x }),
     field "runsOn" .string (·.runsOn) (fun x j => { j with runsOn := x }),
     optionalField "dockerImage" .string (·.dockerImage) (fun x j => { j with dockerImage := x }),
     field "steps" (.list Step.codec) (·.steps) (fun x j => { j with steps := x }),
     field "cache" .bool (·.cache) (fun x j => { j with cache := x }),
     field "envVars" (.list EnvVar.codec) (·.envVars) (fun x j => { j with envVars := x }),
     field "needs" (.list .string) (·.needs) (fun x j => { j with needs := x }),
     optionalField "timeout" minutesCodec (·.timeout) (fun x j => { j with timeout := x }),
     optionalField "strategy" Strategy.codec (·.strategy) (fun x j => { j with strategy := x })]

/-- A pipeline. -/
def Pipeline.codec : Codec Pipeline :=
  .record (typeName "Pipeline" 4) {}
    [field "platform" Platform.codec (·.platform) (fun x p => { p with platform := x }),
     field "triggers" Trigger.codec (·.triggers) (fun x p => { p with triggers := x }),
     field "secrets" (.list Secret.codec) (·.secrets) (fun x p => { p with secrets := x }),
     field "jobs" (.list Job.codec) (·.jobs) (fun x p => { p with jobs := x })]

/-- The compact text of a pipeline. -/
def Pipeline.compact (p : Pipeline) : String := (codec.encode p).compact

end Pipework
