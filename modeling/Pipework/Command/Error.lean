import Pipework.Generation

/-!
# How a command fails

Three kinds of failure as a user sees them: a wrong input or configuration, a document that does not
pass the linter, and anything unexpected.  The kind decides the exit code.
-/

namespace Pipework.Command

/-- The kinds of failure. -/
inductive ErrorKind where
  | config
  | lint
  | other
deriving Repr, DecidableEq

/-- A failed command: what went wrong and perhaps what to do. -/
structure Error where
  kind : ErrorKind
  text : String
  help : Option String
deriving Repr, DecidableEq

/-- The word for a kind. -/
def ErrorKind.name : ErrorKind → String
  | config => "config"
  | lint => "lint"
  | other => "other"

/-- What reports of a kind begin with. -/
def ErrorKind.title : ErrorKind → String
  | config => "Configuration error"
  | lint => "Validation failed"
  | other => "Unexpected error"

/-- The exit code for wrong input. -/
def exitUsage : Nat := 2

/-- The exit code for findings and unexpected failures. -/
def exitFailure : Nat := 1

namespace Error

/-- The wording of a failure. -/
def message (e : Error) : String := s!"{e.kind.title}: {e.text}"

/-- The exit code. -/
def exitCode (e : Error) : Nat :=
  match e.kind with
  | .config => exitUsage
  | .lint | .other => exitFailure

/-- The identifier of the kind of failure. -/
def code (e : Error) : String := s!"cigen::cli::{e.kind.name}"

/-- The failure with another advice. -/
def withHelp (e : Error) (help : String) : Error := { e with help := some help }

/-- A failure as a command reports it. -/
def ofFailure : Failure → Error
  | .file reason operation path =>
    let place := (path.map fun p => s!" on {p}").getD ""
    { kind := .other
      text := s!"I/O {operation} failed{place}: {reason}"
      help := some "Check file permissions and ensure the path exists" }
  | .unwritable reason => ⟨.other, (Failure.unwritable reason).message, none⟩
  | e => ⟨.config, e.message, e.help?⟩

/-- An unknown format as a command reports it. -/
def ofUnknownFormat (e : UnknownFormat) : Error :=
  ⟨.config, e.message, some "This build of cigen was compiled without that platform"⟩

end Error

/-- The identifier of the report of an unknown format. -/
def unknownFormatCode : String := "cigen_ci::emitter::unknown_format"

/-! ## Results as JSON -/

/-- A result in its envelope. -/
def okEnvelope (data : Json) : Json :=
  .object [("status", .string "ok"), ("data", data)]

/-- A failure in its envelope. -/
def errorEnvelope (error : Json) : Json :=
  .object [("status", .string "error"), ("error", error)]

/-- A failed command in its envelope. -/
def Error.envelope (e : Error) : Json :=
  errorEnvelope (.object [("code", .string e.kind.name), ("message", .string e.message)])

end Pipework.Command
