import Pipework.Command.Interface
import Pipework.Command.Output
import Pipework.Store.Folder

/-!
# Running commands

What a request does on a machine, and what it prints.  Nothing is printed in between, so that a
failed command has no output but its failure.
-/

namespace Pipework.Command

open Disk (Host)

/-- What holds for every command. -/
structure Context where
  /-- Whether results are for programs. -/
  json : Bool := false
  /-- The folder of saved configurations, if there is any. -/
  storeFolder : Option String := none
deriving Repr, DecidableEq

namespace Context

/-- The context that options and the environment give.  Without an option, configurations are saved
where programs keep their data. -/
def of (env : Environment) (shared : Shared) : Context where
  json := shared.json
  storeFolder := shared.storeFolder <|>
    env.dataFolder.map fun folder => Disk.join (Disk.join folder "cigen") "configs"

/-- The saved configurations. -/
def store (c : Context) : Except Error FolderStore :=
  match c.storeFolder with
  | some folder => .ok ⟨folder⟩
  | none => .error ⟨.config, "Cannot determine where to store configurations",
      some "Pass --store-dir or set CIGEN_STORE_DIR"⟩

end Context

variable {m : Type → Type} [Monad m] [Host m]

/-- An operation on saved configurations, as part of a command. -/
def stored {α : Type} (op : ExceptT Failure m α) : ExceptT Error m α :=
  ExceptT.mk do return (← op.run).mapError .ofFailure

/-! ## Input -/

/-- Whether a path stands for the standard input: it consists of a dash. -/
def isStandardInput (path : String) : Bool :=
  Disk.dropIdle false (Disk.names path).reverse == ["-"]

/-- The text of a file or of the standard input. -/
def readInput (path : String) : ExceptT Error m String := do
  if isStandardInput path then
    match ← (Host.input : m (Except Disk.Fault String)) with
    | .ok text => return text
    | .error fault => throw ⟨.other, s!"Failed to read stdin: {fault.message}", none⟩
  else
    match ← (Host.read path : m (Except Disk.Fault String)) with
    | .ok text => return text
    | .error fault =>
      throw ⟨.config, s!"Cannot read '{path}': {fault.message}",
        some "Check that the file exists and is readable"⟩

/-- The pipeline in a file or on the standard input. -/
def readPipeline (path : String) : ExceptT Error m Pipeline := do
  match Record.ofText (← readInput path) with
  | .ok r => return r.pipeline
  | .error e => throw (.ofFailure e.failure)

/-! ## Generating -/

/-- Write a generated text, and make the folder that it is to be in. -/
def writeGenerated (path text : String) : ExceptT Failure m Unit := do
  if let some folder := Disk.parent? path then
    if !folder.isEmpty then
      FolderStore.attempt "create output directory" folder (Disk.makeFolders folder)
  FolderStore.attempt "write output" path (Host.write path text)

/-- Add a generated text to the history, if that is possible. -/
def remember (c : Context) (p : Pipeline) (yaml : String) : m Unit := do
  match c.store with
  | .ok store => discard (store.record p yaml).run
  | .error _ => return

/-- The failure of a generated text that has problems. -/
def checkFailure (g : Generation) : Error where
  kind := .lint
  text := s!"generated {g.platform.name} YAML has {g.report.problems.length} error(s)"
  help := some (String.intercalate "\n" g.report.errors)

/-- Generate, and write the text if that is asked for. -/
def generate (c : Context) (o : GenerateOptions) : ExceptT Error m Output := do
  let read ← readPipeline o.input
  let p := { read with platform := o.platform.getD read.platform }
  let registry := Registry.standard (if o.mergeTagPush then .merged else .separate)
  let g ← ((registry.generate p).mapError .ofUnknownFormat : Except Error Generation)
  if o.check && g.report.hasErrors then throw (checkFailure g)
  let destination := o.output <|> (if o.write then some g.outputPath else none)
  if let some path := destination then
    stored (writeGenerated path g.yaml)
    (remember c p g.yaml : m Unit)
  if c.json then return .ofResult (generationJson g destination)
  return generationOutput g destination

/-! ## The other commands -/

/-- Lint a document.  An invalid one is no failure of the command but has its exit code. -/
def validate (c : Context) (file : String) (format : ReportFormat) : ExceptT Error m Output := do
  let report := Lint.report (← readInput file).toList
  let output : Output :=
    if c.json then .ofResult (reportJson report)
    else match format with
      | .json => .ofJson (reportJson report)
      | .text => { stdout := linesText (reportLines report) }
  return { output with exitCode := if report.isValid then 0 else exitFailure }

/-- A starter to be edited. -/
def starter (template : Template) (platform : Platform) : Output :=
  .ofJson (Record.codec.encode { pipeline := template.build platform })

/-- Work on saved configurations. -/
def config (c : Context) (request : ConfigRequest) : ExceptT Error m Output := do
  let store ← c.store
  match request with
  | .save name input =>
    let p ← readPipeline input
    stored (store.save name p)
    if c.json then return .ofResult (.object [("saved", .string name)])
    return { stderr := linesText [s!"Saved '{name}' ({p.jobs.length} jobs) to {store.folder}"] }
  | .load name =>
    let record := Record.codec.encode { pipeline := ← stored (store.load name) }
    return if c.json then .ofResult record else .ofJson record
  | .list =>
    let names ← stored store.list
    return if c.json then .ofResult (textsJson names) else { stdout := linesText names }
  | .delete name =>
    stored (store.delete name)
    if c.json then return .ofResult (.object [("deleted", .string name)])
    return { stderr := linesText [s!"Deleted '{name}'"] }
  | .history =>
    let entries ← stored store.history
    if c.json then return .ofResult (Store.historyCodec.encode entries)
    return { stdout := linesText (entries.map historyLine) }

/-- Do what a command line asks for. -/
def execute (c : Context) : Request → ExceptT Error m Output
  | .generate options => generate c options
  | .validate file format => validate c file format
  | .init template platform => return starter template platform
  | .config request => config c request

/-! ## The whole program -/

/-- The failure of a command line without a request. -/
def nothingAsked : Error :=
  ⟨.config, "No subcommand provided", some "Run 'cigen --help' for usage information"⟩

/-- The name of the program with its version. -/
def versionText : String := "cigen 0.3.0"

/-- How the program is used. -/
def usageText : String :=
  linesText
    ["CI pipeline generator",
     "",
     "Usage: cigen [OPTIONS] <COMMAND>",
     "",
     "Commands:",
     "  generate  Generate CI YAML from a pipeline record",
     "  validate  Lint a CI YAML file",
     "  init      Print a starter pipeline record",
     "  config    Manage saved configurations",
     "",
     "Options:",
     "  -l, --level <LEVEL>            Lowest level of log lines",
     "      --log-format <LOG_FORMAT>  Form of log lines",
     "      --json                     Print results as JSON",
     "      --store-dir <DIR>          Folder of saved configurations",
     "  -h, --help                     Print help",
     "  -V, --version                  Print version"]

/-- The wording of a fault in a command line. -/
def UsageError.message : UsageError → String
  | unknownSubcommand => "unrecognized subcommand"
  | unknownArgument => "unexpected argument found"
  | missingArgument => "the required arguments were not provided"
  | missingSubcommand => "'cigen config' requires a subcommand but one was not provided"
  | invalidValue => "invalid value for an option"
  | refusedValue reason => s!"invalid value for an option: {reason}"
  | unexpectedValue => "unexpected value for an option"
  | conflict => "an argument cannot be used with another one"
  | helpNeeded | help => usageText
  | version => versionText

/-- What is printed for a command line that cannot be run. -/
def UsageError.output (e : UsageError) : Output :=
  match e with
  | help => { stdout := usageText }
  | version => { stdout := linesText [versionText] }
  | helpNeeded => { stderr := usageText, exitCode := e.exitCode }
  | _ => { stderr := linesText [s!"error: {e.message}"], exitCode := e.exitCode }

/-- Read a command line and do what it asks for. -/
def respond (env : Environment) (args : List String) : m Output := do
  match readCommandLine env args with
  | .error e => return e.output
  | .ok (shared, none) => return nothingAsked.output shared.json
  | .ok (shared, some request) =>
    match ← (execute (.of env shared) request).run with
    | .ok output => return output
    | .error e => return e.output shared.json

end Pipework.Command
