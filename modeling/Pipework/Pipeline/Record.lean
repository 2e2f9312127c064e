import Pipework.Failure
import Pipework.Json.Merge
import Pipework.Pipeline.Codec
import Pipework.Yaml.Document
import Pipework.Yaml.Value

/-!
# Records

A record is the saved form of a pipeline, perhaps with the text that was generated from it.  What is
read is laid over the default record, so that a file says only what differs; `null` says nothing.
-/

namespace Pipework

/-- A saved pipeline. -/
structure Record where
  pipeline : Pipeline := {}
  /-- The text generated when the pipeline was saved. -/
  yamlOutput : Option String := none
deriving Repr, DecidableEq, Inhabited

/-- Why a text is no record. -/
inductive RecordError where
  /-- A text is not JSON, or a value not of a record's form. -/
  | json (e : Json.Error)
  /-- A text is no document. -/
  | yaml
  | notObject

/-- The wording of an error; what is wrong with a document is not told. -/
def RecordError.message : RecordError → String
  | json e => e.message
  | yaml => "<yaml>"
  | notObject => "expected an object at the top level"

/-- The failure that an unusable record is. -/
def RecordError.failure (e : RecordError) : Failure := .unreadable e.message

namespace Record

open Json.Codec (field)

/-- The fields of a record. -/
def codec : Json.Codec Record :=
  .record (typeName "PipelineRecord" 5) {}
    [field "platform" Platform.codec (·.pipeline.platform)
       (fun x r => { r with pipeline.platform := x }),
     field "jobs" (.list Job.codec) (·.pipeline.jobs) (fun x r => { r with pipeline.jobs := x }),
     field "triggers" Trigger.codec (·.pipeline.triggers)
       (fun x r => { r with pipeline.triggers := x }),
     field "secrets" (.list Secret.codec) (·.pipeline.secrets)
       (fun x r => { r with pipeline.secrets := x }),
     optionalField "yamlOutput" .string (·.yamlOutput) (fun x r => { r with yamlOutput := x })]

/-- What a record is read over. -/
def defaults : Json := (codec.encode {}).sorted

/-- The record that a value describes. -/
def ofJson (v : Json) : Except RecordError Record :=
  match v with
  | .object _ => (codec.ofJson (defaults.merge v)).mapError .json
  | _ => .error .notObject

/-- The record that a JSON text describes. -/
def ofJsonText (text : String) : Except RecordError Record :=
  match Json.parse text with
  | .ok v => ofJson v
  | .error e => .error (.json e)

/-- The record that a document describes. -/
def ofYamlText (text : String) : Except RecordError Record :=
  match Yaml.read text with
  | some v => ofJson v
  | none => .error .yaml

/-- Whether a text is meant as JSON: its first character that is not blank opens an object. -/
def looksLikeJson (text : String) : Bool :=
  (Text.trimStart text.toList).head? == some '\x7b'

/-- The record that a text describes, in the format that it looks like. -/
def ofText (text : String) : Except RecordError Record :=
  if looksLikeJson text then ofJsonText text else ofYamlText text

/-- The text of a record over several lines. -/
def toJsonText (r : Record) : String := (codec.encode r).pretty

/-- The compact text of a record. -/
def toCompact (r : Record) : String := (codec.encode r).compact

/-- A record as a document. -/
def toYamlText (r : Record) : String := String.ofList (Yaml.document (codec.encode r))

end Record

end Pipework
