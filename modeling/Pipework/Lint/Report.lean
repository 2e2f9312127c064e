/-!
# Reports

What the linter finds: problems that make a document unusable, risks, and advice.  A finding is a
cause, with the number of its line unless it concerns the document as a whole; `message` gives its
wording.
-/

namespace Pipework.Lint

/-- What makes a document unusable. -/
inductive Problem where
  | tab
  | malformedKey
  | undeclaredStage (name : String)
  | missingJobs
deriving Repr, DecidableEq

/-- What is risky or out of date. -/
inductive Risk where
  | oddIndent (spaces : Nat)
  | deprecatedAction (action : String) (major pin : Nat)
  | duplicateTrigger (key : String)
  | secretEcho
  | oldNode (major : Nat)
  | oldPython (major : Nat) (minor : Option Nat)
deriving Repr, DecidableEq

/-- What would be worth doing. -/
inductive Advice where
  | addTimeout
  | addCache
  | addRules
  | useMatrix
deriving Repr, DecidableEq

def Problem.message : Problem → String
  | .tab => "Tab character found; YAML indentation must use spaces"
  | .malformedKey => "Invalid key/value syntax"
  | .undeclaredStage name => s!"Stage '{name}' is not declared in 'stages:'"
  | .missingJobs => "Missing required 'jobs:' section"

def Risk.message : Risk → String
  | .oddIndent spaces => s!"Odd indentation ({spaces} spaces); use multiples of 2"
  | .deprecatedAction action major pin =>
    s!"{action}@v{major} is deprecated; use {action}@v{pin}"
  | .duplicateTrigger key =>
    s!"Duplicate trigger '{key}' under 'on:'; only the last one takes effect"
  | .secretEcho => "Secret printed with echo may leak into job logs"
  | .oldNode major => s!"Node.js {major} is end-of-life; upgrade to Node.js 22 or newer"
  | .oldPython major minor =>
    let version := (minor.map fun m => s!"{major}.{m}").getD (toString major)
    s!"Python {version} is end-of-life; upgrade to Python 3.12 or newer"

def Advice.message : Advice → String
  | .addTimeout => "Add 'timeout-minutes:' to jobs so stuck runs are cancelled"
  | .addCache => "Cache dependencies (actions/cache) to speed up builds"
  | .addRules => "Add 'rules:' (or 'only:'/'except:') to control when jobs run"
  | .useMatrix => "Use a matrix strategy instead of duplicating jobs per operating system"

/-- A finding, with the number of its line if it has one. -/
structure Finding (α : Type) where
  line : Option Nat
  cause : α
deriving Repr, DecidableEq

/-- The text of a finding, given the wording of causes. -/
def Finding.text {α : Type} (message : α → String) (f : Finding α) : String :=
  match f.line with
  | some n => s!"Line {n}: {message f.cause}"
  | none => message f.cause

/-- Counts that describe a document. -/
structure Stats where
  jobs : Nat := 0
  steps : Nat := 0
  triggers : Nat := 0
deriving Repr, DecidableEq

/-- What the linter says about a document. -/
structure Report where
  problems : List (Finding Problem) := []
  risks : List (Finding Risk) := []
  advice : List Advice := []
  stats : Stats := {}
deriving Repr, DecidableEq

namespace Report

/-- The texts of the problems. -/
def errors (r : Report) : List String := r.problems.map (·.text Problem.message)

/-- The texts of the risks. -/
def warnings (r : Report) : List String := r.risks.map (·.text Risk.message)

/-- The texts of the advice. -/
def suggestions (r : Report) : List String := r.advice.map Advice.message

/-- A document without problems is valid. -/
def isValid (r : Report) : Bool := r.problems.isEmpty

/-- Whether there is a problem. -/
def hasErrors (r : Report) : Bool := !r.isValid

/-- The number of findings of all kinds. -/
def findingCount (r : Report) : Nat := r.problems.length + r.risks.length + r.advice.length

end Report

end Pipework.Lint
