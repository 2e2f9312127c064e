import Pipework.Disk.Host
import Pipework.Store.Basic

/-!
# Saved configurations in a folder

A folder with a file for every saved pipeline and one for the history of generated pipelines.  The
folder is made when something is first written to it.
-/

namespace Pipework

open Disk (Host)

/-- The folder of saved pipelines. -/
structure FolderStore where
  folder : String
deriving Repr, DecidableEq

namespace FolderStore

variable {m : Type → Type} [Monad m] [Host m]

/-- The file of a saved pipeline. -/
def pathOf (s : FolderStore) (name : String) : String :=
  Disk.join s.folder (name ++ ".json")

/-- The name of the file of the history. -/
def historyFile : String := "history.json"

/-- The file of the history. -/
def historyPath (s : FolderStore) : String := Disk.join s.folder historyFile

/-- A file operation whose fault is reported with what it was for. -/
def attempt {α : Type} (operation path : String) (op : m (Except Disk.Fault α)) :
    ExceptT Failure m α := do
  match ← op with
  | .ok x => return x
  | .error fault => throw (.file fault.message operation (some path))

/-- Make the folder if it is not there. -/
def ensure (s : FolderStore) : ExceptT Failure m Unit :=
  attempt "create store directory" s.folder (Disk.makeFolders s.folder)

/-- Save a pipeline under a name. -/
def save (s : FolderStore) (name : String) (p : Pipeline) : ExceptT Failure m Unit := do
  Store.checkName name
  s.ensure
  let path := s.pathOf name
  attempt "save config" path (Host.write path ({ pipeline := p : Record }).toJsonText)

/-- Refuse a path at which nothing is. -/
def checkThere (name path : String) : ExceptT Failure m Unit := do
  if !(← (Host.isThere path : m Bool)) then throw (.notFound name)

/-- The pipeline that is saved under a name. -/
def load (s : FolderStore) (name : String) : ExceptT Failure m Pipeline := do
  Store.checkName name
  let path := s.pathOf name
  checkThere name path
  let text ← attempt "load config" path (Host.read path)
  match Record.ofJsonText text with
  | .ok r => return r.pipeline
  | .error e => throw e.failure

/-- The name under which a pipeline is saved in a file, if it is such a file. -/
def nameOf? (file : String) : Option String :=
  match Disk.splitExtension file with
  | (stem, some "json") => if file = historyFile then none else some stem
  | _ => none

/-- The names of the saved pipelines, in their order. -/
def list (s : FolderStore) : ExceptT Failure m (List String) := do
  if !(← (Host.isThere s.folder : m Bool)) then return []
  let files ← attempt "list configs" s.folder (Host.list s.folder)
  return (files.filterMap nameOf?).mergeSort fun a b => !decide (b < a)

/-- Delete the pipeline that is saved under a name. -/
def delete (s : FolderStore) (name : String) : ExceptT Failure m Unit := do
  Store.checkName name
  let path := s.pathOf name
  checkThere name path
  attempt "delete config" path (Host.remove path)

/-- The history, newest first. -/
def history (s : FolderStore) : ExceptT Failure m (List HistoryEntry) := do
  if !(← (Host.isThere s.historyPath : m Bool)) then return []
  let text ← attempt "read history" s.historyPath (Host.read s.historyPath)
  match Store.historyCodec.ofText text with
  | .ok entries => return entries
  | .error e => throw (.unreadable e.message)

/-- Add a generated pipeline to the history. -/
def record (s : FolderStore) (p : Pipeline) (yaml : String) : ExceptT Failure m Unit := do
  let entries ← s.history
  let entry := HistoryEntry.of (← (Host.now : m Time.Instant)) p yaml
  s.ensure
  let text := (Store.historyCodec.encode (Store.addEntry entry entries)).pretty
  attempt "write history" s.historyPath (Host.write s.historyPath text)

end FolderStore

end Pipework
