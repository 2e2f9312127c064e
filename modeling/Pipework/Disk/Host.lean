import Pipework.Disk.Path
import Pipework.Time.Instant

/-!
# What programs ask of a machine

The file operations that saved configurations and commands need, with the clock and the standard
input.  Programs are written against this interface, and so run in a modelled machine as well as in
a real one.
-/

namespace Pipework.Disk

/-- Why a file operation failed. -/
inductive Fault where
  | missing
  | taken
  | notFolder
  | folder
  | nameTooLong
  | nullInPath
  | notText
  | noParent
  /-- A fault that only a real machine has. -/
  | other (text : String)
deriving Repr, DecidableEq

/-- The wording of a fault. -/
def Fault.message : Fault → String
  | missing => "No such file or directory (os error 2)"
  | taken => "File exists (os error 17)"
  | notFolder => "Not a directory (os error 20)"
  | folder => "Is a directory (os error 21)"
  | nameTooLong => "File name too long (os error 36)"
  | nullInPath => "file name contained an unexpected NUL byte"
  | notText => "stream did not contain valid UTF-8"
  | noParent => "failed to create whole tree"
  | other text => text

/-- A machine, as far as programs use it. -/
class Host (m : Type → Type) where
  /-- The text of a file. -/
  read : String → m (Except Fault String)
  /-- Give a file a text, and make it if it is not there. -/
  write : String → String → m (Except Fault Unit)
  /-- Make one folder. -/
  makeFolder : String → m (Except Fault Unit)
  /-- Remove a file. -/
  remove : String → m (Except Fault Unit)
  /-- The names in a folder. -/
  list : String → m (Except Fault (List String))
  isThere : String → m Bool
  isFolder : String → m Bool
  now : m Time.Instant
  /-- The standard input to its end. -/
  input : m (Except Fault String)

variable {m : Type → Type} [Monad m] [Host m]

/-- Make a folder where something was in the way: another folder does no harm. -/
def makeFolderOnce (path : String) (fault : Fault) : m (Except Fault Unit) := do
  if ← Host.isFolder path then return .ok () else return .error fault

/-- Make a folder and those around it, as far as they are missing.  A path has at most as many of
them as characters. -/
def makeFoldersWithin : Nat → String → m (Except Fault Unit)
  | 0, _ => return .error .noParent
  | depth + 1, path => do
    if path.isEmpty then return .ok ()
    match ← Host.makeFolder path with
    | .ok () => return .ok ()
    | .error .missing =>
      match parent? path with
      | none => return .error .noParent
      | some parent =>
        match ← makeFoldersWithin depth parent with
        | .error fault => return .error fault
        | .ok () =>
          match ← Host.makeFolder path with
          | .ok () => return .ok ()
          | .error fault => makeFolderOnce path fault
    | .error fault => makeFolderOnce path fault

/-- Make a folder and those around it. -/
def makeFolders (path : String) : m (Except Fault Unit) :=
  makeFoldersWithin (path.length + 1) path

end Pipework.Disk
