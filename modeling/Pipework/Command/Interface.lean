import Pipework.Command.Arguments
import Pipework.Command.Logging
import Pipework.Pipeline.Template

/-!
# The command line

The subcommands with their options, the options that all of them share, and the environment that
stands in for options that are not given.
-/

namespace Pipework.Command

/-- The forms of a lint report. -/
inductive ReportFormat where
  | text
  | json
deriving Repr, DecidableEq

/-- What to generate, from what and where to. -/
structure GenerateOptions where
  input : String := ""
  platform : Option Platform := none
  output : Option String := none
  /-- Whether to write to the file where the platform looks. -/
  write : Bool := false
  /-- Whether problems in the generated text are a failure. -/
  check : Bool := false
  mergeTagPush : Bool := false
deriving Repr, DecidableEq

/-- What to do with saved configurations. -/
inductive ConfigRequest where
  | save (name input : String)
  | load (name : String)
  | list
  | delete (name : String)
  | history
deriving Repr, DecidableEq

/-- What a command line asks for. -/
inductive Request where
  | generate (options : GenerateOptions)
  | validate (file : String) (format : ReportFormat)
  | init (template : Template) (platform : Platform)
  | config (request : ConfigRequest)
deriving Repr, DecidableEq

/-- The name of the subcommand of a request. -/
def Request.name : Request → String
  | generate _ => "generate"
  | validate .. => "validate"
  | init .. => "init"
  | config _ => "config"

/-- The options that can stand at every level. -/
structure Shared where
  level : Option LogLevel := none
  logFormat : Option LogFormat := none
  json : Bool := false
  storeFolder : Option String := none
deriving Repr, DecidableEq

/-- Options of an outer level with those of an inner one, which count more. -/
def Shared.with (outer inner : Shared) : Shared where
  level := inner.level <|> outer.level
  logFormat := inner.logFormat <|> outer.logFormat
  json := inner.json || outer.json
  storeFolder := inner.storeFolder <|> outer.storeFolder

/-- What the environment says. -/
structure Environment where
  /-- Stands in for the option of the folder of saved configurations. -/
  storeFolder : Option String := none
  /-- Stands in for the option of the form of log lines. -/
  logFormat : Option String := none
  /-- The folder where programs keep data. -/
  dataFolder : Option String := none

/-! ## Values of options -/

/-- A path, which cannot be empty. -/
def pathValue (s : String) : Except UsageError String :=
  if s.isEmpty then .error .invalidValue else .ok s

/-- One of some named values. -/
def namedValue {α : Type} (names : List (String × α)) (s : String) : Except UsageError α :=
  match named? names false s with
  | some x => .ok x
  | none => .error .invalidValue

/-- A platform. -/
def platformValue (s : String) : Except UsageError Platform :=
  (Platform.ofName s).mapError fun e => .refusedValue e.message

/-- A template. -/
def templateValue (s : String) : Except UsageError Template :=
  (Template.ofName s).mapError fun e => .refusedValue e.message

/-- An argument with a value. -/
def valued {σ α : Type} (name : String) (short : Option Char) (read : String → Except UsageError α)
    (set : α → σ → σ) : Argument σ :=
  { name, short, action := .value fun s => (read s).map set }

/-- An option without a value. -/
def flag {σ : Type} (name : String) (set : σ → σ) : Argument σ :=
  { name, short := none, action := .flag set }

/-! ## Levels -/

/-- The options that can stand at every level. -/
def sharedOptions {σ : Type} (edit : (Shared → Shared) → σ → σ) : List (Argument σ) :=
  [valued "level" (some 'l') (namedValue LogLevel.names) fun x =>
     edit fun s => { s with level := some x },
   valued "log-format" none (namedValue LogFormat.names) fun x =>
     edit fun s => { s with logFormat := some x },
   flag "json" (edit fun s => { s with json := true }),
   valued "store-dir" none pathValue fun x => edit fun s => { s with storeFolder := some x },
   { name := "help", short := some 'h', action := .answer .help }]

/-- A level with shared options and some of its own. -/
def levelOf {σ : Type} (options operands : List (Argument σ)) (subcommands : List String) :
    Level (Shared × σ) :=
  let own (a : Argument σ) : Argument (Shared × σ) :=
    { a with action :=
        match a.action with
        | .flag set => .flag fun s => (s.1, set s.2)
        | .value set => .value fun v => (set v).map fun f s => (s.1, f s.2)
        | .answer e => .answer e }
  { options := options.map own ++ sharedOptions fun f s => (f s.1, s.2)
    operands := operands.map own
    subcommands }

/-- What the environment says must be possible values where their options are not given. -/
def Environment.check (env : Environment) (given : List String) : Except UsageError Unit := do
  if let some s := env.logFormat then
    if !given.contains "log-format" then
      let _ ← namedValue LogFormat.names s
  if let some s := env.storeFolder then
    if !given.contains "store-dir" then
      let _ ← pathValue s

/-- A level without subcommands: the options read, and the names of those given. -/
def readLeaf {σ : Type} (env : Environment) (l : Level (Shared × σ)) (start : σ)
    (args : List String) :
    Except UsageError (Shared × σ × List String) := do
  let noSub (_ : String) (_ : List String) : Except UsageError Unit := .error .unknownSubcommand
  let (p, _) ← l.read noSub { options := ({}, start) } args
  env.check p.given
  pure (p.options.1, p.options.2, p.given)

/-- Some arguments must be given. -/
def require (names given : List String) : Except UsageError Unit :=
  if names.all given.contains then .ok () else .error .missingArgument

/-! ## Subcommands -/

/-- The options of generating. -/
def generateLevel : Level (Shared × GenerateOptions) :=
  levelOf
    [valued "input" (some 'i') pathValue fun x o => { o with input := x },
     valued "platform" (some 'p') platformValue fun x o => { o with platform := some x },
     valued "output" (some 'o') pathValue fun x o => { o with output := some x },
     flag "write" fun o => { o with write := true },
     flag "check" fun o => { o with check := true },
     flag "merge-tag-push" fun o => { o with mergeTagPush := true }]
    [] []

/-- The arguments of generating. -/
def readGenerate (env : Environment) (args : List String) :
    Except UsageError (Shared × Request) := do
  let (shared, options, given) ← readLeaf env generateLevel {} args
  if given.contains "output" && given.contains "write" then .error .conflict
  require ["input"] given
  pure (shared, .generate options)

/-- The arguments of linting. -/
def readValidate (env : Environment) (args : List String) :
    Except UsageError (Shared × Request) := do
  let formats := [("text", ReportFormat.text), ("json", .json)]
  let level : Level (Shared × (String × ReportFormat)) :=
    levelOf [valued "format" none (namedValue formats) fun x o => (o.1, x)]
      [valued "FILE" none pathValue fun x o => (x, o.2)] []
  let (shared, (file, format), given) ← readLeaf env level ("", .text) args
  require ["FILE"] given
  pure (shared, .validate file format)

/-- The arguments of printing a starter. -/
def readInit (env : Environment) (args : List String) : Except UsageError (Shared × Request) := do
  let level : Level (Shared × (Template × Platform)) :=
    levelOf
      [valued "template" (some 't') templateValue fun x o => (x, o.2),
       valued "platform" (some 'p') platformValue fun x o => (o.1, x)]
      [] []
  let (shared, (template, platform), _) ← readLeaf env level (.node, .github) args
  pure (shared, .init template platform)

/-- The operand that names a saved configuration. -/
def nameOperand : Argument (String × String) :=
  valued "NAME" none .ok fun x o => (x, o.2)

/-- The arguments of an operation on saved configurations. -/
def readConfigRequest (env : Environment) (name : String) (args : List String) :
    Except UsageError (Shared × ConfigRequest) := do
  let read (options operands : List (Argument (String × String))) :
      Except UsageError (Shared × (String × String)) := do
    let (shared, values, given) ← readLeaf env (levelOf options operands []) ("", "") args
    require ((options ++ operands).map (·.name)) given
    pure (shared, values)
  match name with
  | "save" =>
    let input := valued "input" (some 'i') pathValue fun x (o : String × String) => (o.1, x)
    let (shared, name, input) ← read [input] [nameOperand]
    pure (shared, .save name input)
  | "load" =>
    let (shared, name, _) ← read [] [nameOperand]
    pure (shared, .load name)
  | "delete" =>
    let (shared, name, _) ← read [] [nameOperand]
    pure (shared, .delete name)
  | "list" => return ((← read [] []).1, .list)
  | _ => return ((← read [] []).1, .history)

/-- The operations on saved configurations. -/
def configNames : List String := ["save", "load", "list", "delete", "history"]

/-- The subcommands. -/
def commandNames : List String := ["generate", "validate", "init", "config"]

/-- The answer to a question for help on what some names tell. -/
def helpOn (names : List String) (inner : String → List String) : List String → UsageError
  | [] => .help
  | name :: rest =>
    if !(name == "help" || names.contains name) then .unknownSubcommand
    else
      match rest with
      | [] => .help
      | next :: more =>
        if (inner name).contains next && more.isEmpty then .help else .unknownSubcommand

/-- The arguments of the operations on saved configurations. -/
def readConfig (env : Environment) (args : List String) : Except UsageError (Shared × Request) := do
  let sub (name : String) (args : List String) : Except UsageError (Shared × ConfigRequest) :=
    if name == "help" then .error (helpOn configNames (fun _ => []) args)
    else readConfigRequest env name args
  let level : Level (Shared × Unit) := levelOf [] [] ("help" :: configNames)
  let (p, request) ← level.read sub { options := ({}, ()) } args
  env.check p.given
  match request with
  | some (inner, request) => pure (p.options.1.with inner, .config request)
  | none =>
    if p.given.isEmpty && env.storeFolder.isNone && env.logFormat.isNone then .error .helpNeeded
    else .error .missingSubcommand

/-- A subcommand with its arguments. -/
def readCommand (env : Environment) (name : String) (args : List String) :
    Except UsageError (Shared × Request) :=
  match name with
  | "generate" => readGenerate env args
  | "validate" => readValidate env args
  | "init" => readInit env args
  | "config" => readConfig env args
  | _ =>
    .error (helpOn commandNames (fun n => if n == "config" then "help" :: configNames else []) args)

/-- A command line: the shared options, with the environment where they are not given, and the
request. -/
def readCommandLine (env : Environment) (args : List String) :
    Except UsageError (Shared × Option Request) := do
  let version : Argument Unit :=
    { name := "version", short := some 'V', action := .answer .version }
  let level := levelOf [version] [] ("help" :: commandNames)
  let (p, request) ← level.read (readCommand env) { options := ({}, ()) } args
  env.check p.given
  let shared :=
    match request with
    | some (inner, _) => p.options.1.with inner
    | none => p.options.1
  let logFormat := env.logFormat.bind (named? LogFormat.names false)
  pure ({ shared with
      storeFolder := shared.storeFolder <|> env.storeFolder
      logFormat := shared.logFormat <|> logFormat },
    request.map (·.2))

end Pipework.Command
