import Pipework.Disk.Host
import Pipework.Named

/-!
# A modelled machine

A tree of folders and files with a working folder, a clock that stands still and a given standard
input.  There are no links on it, symbolic or hard, and nothing is refused for want of permission:
what fails does so because of what is there, or of a name that no file can have.  File systems with
links that refuse what they like are `Volume`s.
-/

namespace Pipework.Disk

/-- A file or a folder. -/
inductive Tree where
  | text (content : String)
  /-- A file whose bytes are no text. -/
  | bytes (content : List UInt8)
  /-- A folder with its entries in the order of their names. -/
  | folder (entries : List (String × Tree))
deriving Inhabited

namespace Tree

/-- The file with some bytes. -/
def ofBytes (content : List UInt8) : Tree :=
  match String.fromUTF8? (ByteArray.mk content.toArray) with
  | some s => .text s
  | none => .bytes content

/-- What is at the end of a way through folders. -/
def get? : List String → Tree → Option Tree
  | [], t => some t
  | name :: way, .folder entries => (Named.get? name entries).bind (get? way)
  | _ :: _, _ => none

/-- The tree with something put, or removed, at the end of a way through folders. -/
def put (new : Option Tree) : List String → Tree → Tree
  | [], t => t
  | [name], .folder entries =>
    match new with
    | some u => .folder (Named.insert name u entries)
    | none => .folder (Named.erase name entries)
  | name :: way, .folder entries =>
    match Named.get? name entries with
    | some t => .folder (Named.insert name (put new way t) entries)
    | none => .folder entries
  | _ :: _, t => t

/-- Whether something is a folder. -/
def isFolder : Tree → Bool
  | folder _ => true
  | _ => false

end Tree

/-- A machine without links. -/
structure Machine where
  root : Tree := .folder []
  /-- The way to the working folder. -/
  here : List String := []
  clock : Time.Instant := ⟨0, 0⟩
  input : String := ""

namespace Machine

/-- Where a path leads. -/
inductive Spot where
  /-- A folder that the path names by a dot, two dots or a slash. -/
  | folder (way : List String)
  /-- A name in a folder, perhaps with a slash behind it, and nothing or something of that name. -/
  | entry (way : List String) (slash : Bool) (found : Option Tree)

/-- The length in bytes that a name can have. -/
def nameLimit : Nat := 255

/-- Where the names of a path lead from a folder. -/
def walk (root : Tree) (way : List String) : List String → Except Fault Spot
  | [] => .ok (.folder way)
  | name :: rest =>
    if !(root.get? way).any Tree.isFolder then .error .notFolder
    else if name = "" || name = "." then walk root way rest
    else if name = ".." then walk root way.dropLast rest
    else if nameLimit < name.utf8ByteSize then .error .nameTooLong
    else
      let next := way ++ [name]
      let found := root.get? next
      if rest.all String.isEmpty then .ok (.entry next (!rest.isEmpty) found)
      else if found.isNone then .error .missing
      else walk root next rest

/-- Where a path leads. -/
def locate (d : Machine) (path : String) : Except Fault Spot :=
  if path.isEmpty then .error .missing
  else if path.toList.contains '\x00' then .error .nullInPath
  else walk d.root (if isAbsolute path then [] else d.here) (names path)

/-- What is at a path. -/
def find (d : Machine) (path : String) : Except Fault Tree := do
  match ← d.locate path with
  | .folder way => (d.root.get? way).elim (.error .missing) pure
  | .entry _ _ none => .error .missing
  | .entry _ slash (some t) => if slash && !t.isFolder then .error .notFolder else pure t

/-- The text of a file. -/
def read (d : Machine) (path : String) : Except Fault String := do
  match ← d.find path with
  | .text s => pure s
  | .bytes _ => .error .notText
  | .folder _ => .error .folder

/-- The machine with another text in a file. -/
def write (d : Machine) (path text : String) : Except Fault Machine := do
  match ← d.locate path with
  | .folder _ => .error .folder
  | .entry way slash found =>
    if slash || found.any Tree.isFolder then .error .folder
    else pure { d with root := d.root.put (some (.text text)) way }

/-- The machine with one more folder. -/
def makeFolder (d : Machine) (path : String) : Except Fault Machine := do
  match ← d.locate path with
  | .folder _ => .error .taken
  | .entry way _ none => pure { d with root := d.root.put (some (.folder [])) way }
  | .entry _ _ (some _) => .error .taken

/-- The machine without a file. -/
def remove (d : Machine) (path : String) : Except Fault Machine := do
  match ← d.locate path with
  | .folder _ => .error .folder
  | .entry _ _ none => .error .missing
  | .entry way slash (some t) =>
    if t.isFolder then .error .folder
    else if slash then .error .notFolder
    else pure { d with root := d.root.put none way }

/-- The names in a folder. -/
def list (d : Machine) (path : String) : Except Fault (List String) := do
  match ← d.find path with
  | .folder entries => pure (entries.map (·.1))
  | _ => .error .notFolder

/-- An operation that changes the machine if it succeeds. -/
def change (op : Machine → Except Fault Machine) : StateM Machine (Except Fault Unit) := do
  match op (← get) with
  | .ok d =>
    set d
    return .ok ()
  | .error fault => return .error fault

instance : Host (StateM Machine) where
  read path := return (← get).read path
  write path text := change (·.write path text)
  makeFolder path := change (·.makeFolder path)
  remove path := change (·.remove path)
  list path := return (← get).list path
  isThere path := return ((← get).find path).isOk
  isFolder path := return match (← get).find path with
    | .ok t => t.isFolder
    | .error _ => false
  now := return (← get).clock
  input := return .ok (← get).input

end Machine

end Pipework.Disk
