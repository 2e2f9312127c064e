import Pipework.Emit.Github
import Pipework.Emit.Gitlab
import Pipework.Named
import Pipework.Text.Shown

/-!
# Emitters

An emitter is any way to write pipelines, with the name of its format.  A registry holds at most one
emitter for each name, in the order of the names, and a pipeline is written by the emitter whose
format has the name of the pipeline's platform.
-/

namespace Pipework

/-- A way to write a pipeline.  The format has the name of the platform unless it has another one,
which may as well be that of a platform that the emitter does not write for. -/
structure Emitter where
  /-- The platform that reads what is written. -/
  platform : Platform
  /-- The text of a pipeline. -/
  emit : Pipeline → String
  /-- Where a repository has the file. -/
  outputPath : String
  /-- The name of the format. -/
  format : String := platform.name
  /-- The extension of the file. -/
  extension : String := "yml"
  /-- What is written. -/
  description : String := "CI configuration emitter"

namespace Emitter

/-- The emitter of workflows. -/
def github (tagPush : Emit.Github.TagPush) : Emitter where
  platform := .github
  emit := Emit.github tagPush
  outputPath := ".github/workflows/ci.yml"
  description := "GitHub Actions workflow YAML"

/-- The emitter of configurations. -/
def gitlab : Emitter where
  platform := .gitlab
  emit := Emit.gitlab
  outputPath := ".gitlab-ci.yml"
  description := "GitLab CI pipeline YAML"

/-- The emitters that come with the program. -/
inductive BuiltIn : Emitter → Prop where
  | github (tagPush : Emit.Github.TagPush) : BuiltIn (.github tagPush)
  | gitlab : BuiltIn .gitlab

end Emitter

/-- The emitters of some formats under the names of these. -/
structure Registry where
  entries : List (String × Emitter)
  format_eq : ∀ entry ∈ entries, entry.2.format = entry.1

/-- A format that no emitter writes. -/
structure UnknownFormat where
  format : String
  /-- The formats that are written. -/
  available : String
deriving Repr, DecidableEq

/-- The report of an unknown format. -/
def UnknownFormat.message (e : UnknownFormat) : String :=
  s!"Unknown format '{e.format}'. Available: {e.available}"

namespace Registry

/-- The registry without emitters. -/
def empty : Registry := ⟨[], by simp⟩

/-- Put an emitter in the place of the former one of its format. -/
def register (r : Registry) (e : Emitter) : Registry where
  entries := Named.insert e.format e r.entries
  format_eq entry hentry := by
    rcases Named.eq_or_mem_of_mem_insert hentry with rfl | hmem
    · rfl
    · exact r.format_eq entry hmem

/-- The registry of some emitters, of which later ones replace earlier ones. -/
def ofList (es : List Emitter) : Registry :=
  es.foldl register empty

/-- The emitters in the order of the names of their formats. -/
def emitters (r : Registry) : List Emitter :=
  r.entries.map (·.2)

/-- The names of the formats. -/
def formats (r : Registry) : List String :=
  r.entries.map (·.1)

/-- The emitter of a format. -/
def get? (r : Registry) (format : String) : Option Emitter :=
  Named.get? format r.entries

/-- Whether a format has an emitter. -/
def contains (r : Registry) (format : String) : Bool :=
  (r.get? format).isSome

/-- The number of emitters. -/
def size (r : Registry) : Nat := r.entries.length

/-- The emitter of a format, or the report that there is none. -/
def lookup (r : Registry) (format : String) : Except UnknownFormat Emitter :=
  match r.get? format with
  | some e => .ok e
  | none => .error ⟨format, String.intercalate ", " r.formats⟩

/-- The emitter of a platform: the one whose format has the platform's name. -/
def forPlatform (r : Registry) (p : Platform) : Except UnknownFormat Emitter :=
  r.lookup p.name

/-- A pipeline in a format, whatever its own platform. -/
def emit (r : Registry) (format : String) (p : Pipeline) : Except UnknownFormat String :=
  (r.lookup format).map (·.emit p)

/-- A registry in a line of text. -/
def shown (r : Registry) : String :=
  let quoted := r.formats.map fun f => String.ofList (Text.shown f.toList)
  "EmitterRegistry \x7b formats: [" ++ String.intercalate ", " quoted ++ "] \x7d"

/-- The emitters of both platforms. -/
def standard (tagPush : Emit.Github.TagPush) : Registry :=
  ofList [.github tagPush, .gitlab]

end Registry

end Pipework
