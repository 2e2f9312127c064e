import Pipework.Emit.Registry
import Pipework.Lint.Rules
import Pipework.Pipeline.Record

/-!
# Generating and editing

A generation is the text of a pipeline with what the linter says about it.  A session keeps a
pipeline together with its generation, and is changed in place: a call generates anew, then assigns
the pipeline, then the generation.
-/

namespace Pipework

/-- What is generated from a pipeline. -/
structure Generation where
  platform : Platform
  outputPath : String
  yaml : String
  report : Lint.Report
deriving DecidableEq

/-- The generation of a pipeline for its platform. -/
def Registry.generate (r : Registry) (p : Pipeline) : Except UnknownFormat Generation := do
  let e ← r.forPlatform p.platform
  let yaml := e.emit p
  pure
    { platform := p.platform, outputPath := e.outputPath, yaml,
      report := Lint.report yaml.toList }

/-- A pipeline being edited, with its generation. -/
structure Session where
  registry : Registry
  pipeline : Pipeline
  generation : Generation

/-- Why an import was refused. -/
inductive ImportError where
  | record (e : RecordError)
  | format (e : UnknownFormat)

namespace Session

/-- The session of a pipeline. -/
def start (r : Registry) (p : Pipeline) : Except UnknownFormat Session :=
  (r.generate p).map fun generation => { registry := r, pipeline := p, generation }

/-- A computation on the session that an editor holds.  What it has assigned stays assigned where it
fails later. -/
abbrev InPlace (ε α : Type) := ExceptT ε (StateM Session) α

namespace InPlace

/-- Generate, then assign the pipeline and its generation one after the other. -/
def replace (p : Pipeline) : InPlace UnknownFormat Generation := do
  let generation ← MonadExcept.ofExcept ((← get).registry.generate p)
  modify fun s => { s with pipeline := p }
  modify fun s => { s with generation := generation }
  return generation

/-- Edit a copy of the pipeline, and put it in the place of the pipeline. -/
def update (edit : Pipeline → Pipeline) : InPlace UnknownFormat Generation := do
  replace (edit (← get).pipeline)

/-- Read a JSON record, and put its pipeline in the place of the pipeline. -/
def importJson (text : String) : InPlace ImportError Generation := do
  let record ← MonadExcept.ofExcept ((Record.ofJsonText text).mapError ImportError.record)
  (replace record.pipeline).adapt ImportError.format

/-- The session behind a computation that succeeded. -/
def behind {ε α : Type} (x : InPlace ε α) (s : Session) : Except ε Session :=
  let (result, s') := x.run.run s
  result.map fun _ => s'

end InPlace

/-- The session with another pipeline. -/
def replace (s : Session) (p : Pipeline) : Except UnknownFormat Session :=
  (InPlace.replace p).behind s

/-- The session after an edit of its pipeline. -/
def update (s : Session) (edit : Pipeline → Pipeline) : Except UnknownFormat Session :=
  (InPlace.update edit).behind s

/-- The session with the pipeline of a JSON record. -/
def importJson (s : Session) (text : String) : Except ImportError Session :=
  (InPlace.importJson text).behind s

/-- The pipeline with its text, as a record. -/
def toRecord (s : Session) : Record :=
  { pipeline := s.pipeline, yamlOutput := some s.generation.yaml }

end Session

end Pipework
