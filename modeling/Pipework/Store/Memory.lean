import Pipework.Named
import Pipework.Store.Basic

/-!
# Saved configurations in memory

Pipelines under their names, in the order of the names.
-/

namespace Pipework

/-- Saved pipelines. -/
structure MemoryStore where
  entries : List (String × Pipeline) := []

namespace MemoryStore

/-- Save a pipeline under a name. -/
def save (s : MemoryStore) (name : String) (p : Pipeline) : Except Failure MemoryStore := do
  Store.checkName name
  pure ⟨Named.insert name p s.entries⟩

/-- The pipeline that is saved under a name. -/
def load (s : MemoryStore) (name : String) : Except Failure Pipeline :=
  match Named.get? name s.entries with
  | some p => .ok p
  | none => .error (.notFound name)

/-- The names of the saved pipelines. -/
def list (s : MemoryStore) : List String := s.entries.map (·.1)

/-- Delete the pipeline that is saved under a name. -/
def delete (s : MemoryStore) (name : String) : Except Failure MemoryStore :=
  match Named.get? name s.entries with
  | some _ => .ok ⟨Named.erase name s.entries⟩
  | none => .error (.notFound name)

end MemoryStore

end Pipework
