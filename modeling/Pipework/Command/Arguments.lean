/-!
# Reading a command line

Options, operands and subcommands of one level of a command line, and the reader of such a level.
An option that takes a value gets it from behind an equals sign, from the rest of a cluster of short
options, or from the next argument; then it is settled only when the next option or operand begins,
so that faults are found in that order.
-/

namespace Pipework.Command

/-- Why a command line cannot be run. -/
inductive UsageError where
  | unknownSubcommand
  | unknownArgument
  | missingArgument
  | missingSubcommand
  /-- A value that is missing, empty or none of the possible ones. -/
  | invalidValue
  /-- A value that is refused for a reason. -/
  | refusedValue (reason : String)
  /-- A value for an option that takes none. -/
  | unexpectedValue
  /-- Two options that exclude each other, or one that is given twice. -/
  | conflict
  /-- Help is shown because nothing was asked for. -/
  | helpNeeded
  /-- Help was asked for. -/
  | help
  /-- The version was asked for. -/
  | version
deriving Repr, DecidableEq

/-- The exit code: answering a question is no failure. -/
def UsageError.exitCode : UsageError → Nat
  | help | version => 0
  | _ => 2

/-- What an argument does to the options read so far. -/
inductive Action (σ : Type) where
  | flag (set : σ → σ)
  | value (set : String → Except UsageError (σ → σ))
  /-- Stop and answer instead. -/
  | answer (e : UsageError)

/-- Whether an argument takes a value. -/
def Action.takesValue {σ : Type} : Action σ → Bool
  | value _ => true
  | _ => false

/-- An option, or an operand under the name that its help gives it. -/
structure Argument (σ : Type) where
  name : String
  short : Option Char
  action : Action σ

/-- What one level of a command line can hold. -/
structure Level (σ : Type) where
  options : List (Argument σ)
  operands : List (Argument σ)
  subcommands : List String

/-- How far a level has been read. -/
structure Progress (σ : Type) where
  options : σ
  /-- The names of the arguments given so far. -/
  given : List String := []
  /-- An argument that is not settled yet, with its value. -/
  pending : Option (Argument σ × Option String) := none
  /-- Whether the pending argument still needs its value. -/
  awaiting : Bool := false
  /-- Whether only operands follow. -/
  onlyOperands : Bool := false
  operands : Nat := 0

namespace Progress

variable {σ : Type}

/-- Settle an argument. -/
def apply (p : Progress σ) (a : Argument σ) (v : Option String) :
    Except UsageError (Progress σ) := do
  let once (set : σ → Except UsageError σ) : Except UsageError (Progress σ) := do
    if p.given.contains a.name then .error .conflict
    pure { p with options := ← set p.options, given := a.name :: p.given }
  match a.action, v with
  | .answer e, _ => .error e
  | .flag set, _ => once fun s => .ok (set s)
  | .value _, none => .error .invalidValue
  | .value set, some v => once fun s => do pure ((← set v) s)

/-- Settle the pending argument. -/
def settle (p : Progress σ) : Except UsageError (Progress σ) :=
  match p.pending with
  | none => .ok p
  | some (a, v) => { p with pending := none, awaiting := false }.apply a v

/-- An option has been met, perhaps with a value attached to it. -/
def meet (p : Progress σ) (a : Argument σ) (attached : Option String) :
    Except UsageError (Progress σ) := do
  let p ← p.settle
  if a.action.takesValue && attached.isNone then
    pure { p with pending := some (a, none), awaiting := true }
  else p.apply a attached

end Progress

namespace Level

variable {σ : Type}

/-- The name and the attached value of a long option. -/
def splitLong (s : List Char) : String × Option String :=
  match s.dropWhile (· ≠ '=') with
  | [] => (String.ofList s, none)
  | _ :: value => (String.ofList (s.takeWhile (· ≠ '=')), some (String.ofList value))

/-- A long option without its dashes. -/
def readLong (l : Level σ) (p : Progress σ) (s : List Char) : Except UsageError (Progress σ) := do
  let (name, attached) := splitLong s
  match l.options.find? (·.name == name) with
  | none => .error .unknownArgument
  | some a =>
    if !a.action.takesValue && attached.isSome then .error .unexpectedValue
    else p.meet a attached

/-- A cluster of short options without its dash.  What follows an option that takes a value is its
value. -/
def readShort (l : Level σ) (p : Progress σ) : List Char → Except UsageError (Progress σ)
  | [] => .ok p
  | c :: rest =>
    match l.options.find? (·.short == some c) with
    | none => .error .unknownArgument
    | some a =>
      if a.action.takesValue then
        p.meet a (match rest with
          | [] => none
          | '=' :: value => some (String.ofList value)
          | value => some (String.ofList value))
      else do l.readShort (← p.meet a none) rest

/-- An operand. -/
def readOperand (l : Level σ) (p : Progress σ) (s : String) : Except UsageError (Progress σ) :=
  match l.operands[p.operands]? with
  | some a => do
    let p ← p.settle
    pure { p with pending := some (a, some s), awaiting := false, operands := p.operands + 1 }
  | none =>
    if p.onlyOperands && l.subcommands.contains s then .error .unknownArgument
    else if !l.subcommands.isEmpty && l.operands.isEmpty then .error .unknownSubcommand
    else .error .unknownArgument

/-- An argument that is no subcommand. -/
def readArgument (l : Level σ) (p : Progress σ) (s : String) : Except UsageError (Progress σ) :=
  if p.onlyOperands then l.readOperand p s
  else
    match s.toList with
    | ['-', '-'] => .ok { p with onlyOperands := true }
    | '-' :: '-' :: long => l.readLong p long
    | ['-'] => plain
    | '-' :: short => l.readShort p short
    | _ => plain
where
  /-- The awaited value, or else an operand. -/
  plain : Except UsageError (Progress σ) :=
    match p.awaiting, p.pending with
    | true, some (a, _) => .ok { p with pending := some (a, some s), awaiting := false }
    | _, _ => l.readOperand p s

/-- A level of a command line, with what `sub` makes of its subcommand and the arguments
behind it. -/
def read {β : Type} (l : Level σ) (sub : String → List String → Except UsageError β) :
    Progress σ → List String → Except UsageError (Progress σ × Option β)
  | p, [] => do pure (← p.settle, none)
  | p, s :: rest => do
    if !p.onlyOperands && !p.awaiting && l.subcommands.contains s then
      let b ← sub s rest
      pure (← p.settle, some b)
    else l.read sub (← l.readArgument p s) rest

end Level

end Pipework.Command
