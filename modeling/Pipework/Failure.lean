/-!
# Failures

What can go wrong with configurations: a text that describes none, a name that is unknown or not
allowed, and files that cannot be read or written.
-/

namespace Pipework

/-- Why something could not be done. -/
inductive Failure where
  /-- A text describes no configuration. -/
  | unreadable (reason : String)
  /-- No configuration is saved under a name. -/
  | notFound (name : String)
  /-- A name that a saved configuration cannot have. -/
  | invalidName (name : String)
  /-- A file operation failed. -/
  | file (reason operation : String) (path : Option String)
  /-- A value could not be written. -/
  | unwritable (reason : String)
deriving Repr, DecidableEq

namespace Failure

/-- The wording of a failure. -/
def message : Failure → String
  | unreadable reason => s!"Could not parse configuration: {reason}"
  | notFound name => s!"No saved configuration named '{name}'"
  | invalidName name => s!"Invalid configuration name '{name}'"
  | file reason operation _ => s!"I/O error during {operation}: {reason}"
  | unwritable reason => s!"Serialization error: {reason}"

/-- The identifier of a kind of failure. -/
def code : Failure → String
  | unreadable _ => "cigen_core::record::parse"
  | notFound _ => "cigen_core::store::not_found"
  | invalidName _ => "cigen_core::store::invalid_name"
  | file .. => "cigen_core::io::error"
  | unwritable _ => "cigen_core::serialization"

/-- What to do about a failure. -/
def help? : Failure → Option String
  | unreadable _ => some "Check that the file is a JSON or YAML pipeline record"
  | notFound _ => some "Run 'cigen config list' to see saved configurations"
  | invalidName _ => some "Names may only contain letters, digits, '-', '_' and '.'"
  | file .. => none
  | unwritable _ => none

end Failure

end Pipework
