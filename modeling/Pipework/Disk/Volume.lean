import Pipework.Disk.Host
import Pipework.Named

/-!
# Volumes with links

A file system whose files, folders and symbolic links have numbers.  The entries of a folder are
names for numbers, so that a file can have several names: hard links.  A symbolic link holds a path,
which is followed wherever the link stands within a path and, by most operations, at its end.  A
volume may refuse any request for reasons of its own, such as permissions, before anything is done.
-/

namespace Pipework.Disk

/-- What a number stands for. -/
inductive Node where
  | text (content : String)
  /-- A file whose bytes are no text. -/
  | bytes (content : List UInt8)
  /-- A folder with the folder around it and its entries in the order of their names. -/
  | folder (parent : Nat) (entries : List (String × Nat))
  /-- A symbolic link with the path that it stands for. -/
  | link (target : String)

namespace Node

/-- The entries of a folder. -/
def entries : Node → List (String × Nat)
  | folder _ entries => entries
  | _ => []

@[simp]
theorem entries_text (content : String) : (text content).entries = [] := rfl

@[simp]
theorem entries_folder (parent : Nat) (values : List (String × Nat)) :
    (folder parent values).entries = values := rfl

def isFolder : Node → Bool
  | folder .. => true
  | _ => false

def isFile : Node → Bool
  | text _ => true
  | bytes _ => true
  | _ => false

def isLink : Node → Bool
  | link _ => true
  | _ => false

end Node

/-- What a volume is asked for. -/
inductive Request where
  | read (path : String)
  | write (path text : String)
  | makeFolder (path : String)
  | remove (path : String)
  | list (path : String)
  /-- What is at a path, for a program that only asks whether it is there or a folder. -/
  | look (path : String)

/-- A file system with links. -/
structure Volume where
  /-- What the numbers stand for, each at its place. -/
  nodes : List Node
  /-- No entry is without a node. -/
  closed : ∀ node ∈ nodes, ∀ entry ∈ node.entries, entry.2 < nodes.length
  root : Nat := 0
  /-- The working folder. -/
  here : Nat := 0
  /-- The fault with which a request is refused, whatever the volume would do otherwise. -/
  refuses : Request → List Node → Option Fault := fun _ _ => none
  clock : Time.Instant := ⟨0, 0⟩
  input : String := ""

namespace Volume

/-- What a number stands for. -/
def node? (v : Volume) (n : Nat) : Option Node := v.nodes[n]?

/-- The number that a name has in a folder. -/
def number? (v : Volume) (n : Nat) (name : String) : Option Nat :=
  (v.node? n).bind fun node => Named.get? name node.entries

/-! ## Paths -/

/-- Where a path leads. -/
inductive Spot where
  /-- A folder that the path names by a dot, two dots or a slash. -/
  | folder (n : Nat)
  /-- A name in a folder, perhaps with a slash behind it, and the number that it has there. -/
  | entry (n : Nat) (name : String) (slash : Bool) (found : Option Nat)

/-- The length in bytes that a name can have. -/
def nameLimit : Nat := 255

/-- The number of links that a path can lead over. -/
def linkLimit : Nat := 40

/-- The fault of a path that leads over too many links. -/
def tooManyLinks : Fault := .other "Too many levels of symbolic links (os error 40)"

/-- Where the names of a path lead from a folder, over a limited number of links.  A link at the end
is followed only on demand. -/
def walk (v : Volume) (follow : Bool) (links n : Nat) : List String → Except Fault Spot
  | [] => .ok (.folder n)
  | name :: rest =>
    match v.node? n with
    | some (.folder parent entries) =>
      if name = "" || name = "." then walk v follow links n rest
      else if name = ".." then walk v follow links parent rest
      else if nameLimit < name.utf8ByteSize then .error .nameTooLong
      else
        match Named.get? name entries with
        | none =>
          if rest.all String.isEmpty then .ok (.entry n name (!rest.isEmpty) none)
          else .error .missing
        | some k =>
          match v.node? k with
          | some (.link target) =>
            if rest.all String.isEmpty && !follow then
              .ok (.entry n name (!rest.isEmpty) (some k))
            else
              match links with
              | 0 => .error tooManyLinks
              | links + 1 =>
                walk v follow links (if isAbsolute target then v.root else n)
                  (names target ++ rest)
          | _ =>
            if rest.all String.isEmpty then .ok (.entry n name (!rest.isEmpty) (some k))
            else walk v follow links k rest
    | _ => .error .notFolder
  termination_by path => (links, path.length)

/-- Where a path leads. -/
def locate (v : Volume) (follow : Bool) (path : String) : Except Fault Spot :=
  if path.isEmpty then .error .missing
  else if path.toList.contains '\x00' then .error .nullInPath
  else walk v follow linkLimit (if isAbsolute path then v.root else v.here) (names path)

/-- The number of what is at a path, behind all links. -/
def find (v : Volume) (path : String) : Except Fault Nat := do
  match ← v.locate true path with
  | .folder n => pure n
  | .entry _ _ _ none => .error .missing
  | .entry _ _ slash (some k) =>
    if slash && !(v.node? k).any Node.isFolder then .error .notFolder else pure k

/-! ## Changes of nodes -/

/-- A volume in which another text is in a file. -/
def setText (v : Volume) (n : Nat) (text : String) : Volume :=
  { v with
    nodes := v.nodes.set n (.text text)
    closed := by
      intro node hnode entry hentry
      rw [List.length_set]
      rcases List.mem_or_eq_of_mem_set hnode with hmem | rfl
      · exact v.closed node hmem entry hentry
      · cases hentry }

/-- A volume in which a folder has one entry more, for something that was not there. -/
def add (v : Volume) (n : Nat) (name : String) (new : Node) (hnew : new.entries = []) : Volume :=
  match h : v.node? n with
  | some (.folder parent entries) =>
    { v with
      nodes := v.nodes.set n (.folder parent (Named.insert name v.nodes.length entries)) ++ [new]
      closed := by
        have hold : ∀ node ∈ v.nodes, ∀ entry ∈ node.entries, entry.2 < v.nodes.length + 1 :=
          fun node hnode entry hentry => Nat.lt_succ_of_lt (v.closed node hnode entry hentry)
        intro node hnode entry hentry
        rw [List.length_append, List.length_set, List.length_singleton]
        rcases List.mem_append.1 hnode with hset | hmem
        · rcases List.mem_or_eq_of_mem_set hset with hmem | rfl
          · exact hold node hmem entry hentry
          · rcases Named.eq_or_mem_of_mem_insert hentry with rfl | hmem
            · exact Nat.lt_succ_self _
            · exact hold _ (List.mem_of_getElem? h) entry hmem
        · rw [List.mem_singleton.1 hmem, hnew] at hentry
          cases hentry }
  | _ => v

/-- A volume in which a folder has one entry less. -/
def drop (v : Volume) (n : Nat) (name : String) : Volume :=
  match h : v.node? n with
  | some (.folder parent entries) =>
    { v with
      nodes := v.nodes.set n (.folder parent (Named.erase name entries))
      closed := by
        intro node hnode entry hentry
        rw [List.length_set]
        rcases List.mem_or_eq_of_mem_set hnode with hmem | rfl
        · exact v.closed node hmem entry hentry
        · exact v.closed _ (List.mem_of_getElem? h) entry (List.mem_filter.1 hentry).1 }
  | _ => v

/-! ## Requests -/

/-- An answer, unless the request is refused. -/
def serve {α : Type} (v : Volume) (r : Request) (answer : Except Fault α) : Except Fault α :=
  match v.refuses r v.nodes with
  | some fault => .error fault
  | none => answer

/-- The text of a file. -/
def read (v : Volume) (path : String) : Except Fault String :=
  v.serve (.read path) do
    match v.node? (← v.find path) with
    | some (.text s) => pure s
    | some (.bytes _) => .error .notText
    | some (.folder ..) => .error .folder
    | _ => .error .missing

/-- The volume with another text in a file.  A link is followed to the file that it leads to, which
is made if it is not there. -/
def write (v : Volume) (path text : String) : Except Fault Volume :=
  v.serve (.write path text) do
    match ← v.locate true path with
    | .folder _ => .error .folder
    | .entry _ _ true _ => .error .folder
    | .entry n name false none => pure (v.add n name (.text text) (Node.entries_text text))
    | .entry _ _ false (some k) =>
      if (v.node? k).any Node.isFile then pure (v.setText k text) else .error .folder

/-- The volume with one more folder.  A link in its place is in the way wherever it leads. -/
def makeFolder (v : Volume) (path : String) : Except Fault Volume :=
  v.serve (.makeFolder path) do
    match ← v.locate false path with
    | .folder _ => .error .taken
    | .entry n name _ none => pure (v.add n name (.folder n []) (Node.entries_folder n []))
    | .entry _ _ _ (some _) => .error .taken

/-- The volume without a name of a file, or without a link, which is not followed. -/
def remove (v : Volume) (path : String) : Except Fault Volume :=
  v.serve (.remove path) do
    match ← v.locate false path with
    | .folder _ => .error .folder
    | .entry _ _ _ none => .error .missing
    | .entry n name slash (some k) =>
      if (v.node? k).any Node.isFolder then .error .folder
      else if slash then .error .notFolder
      else pure (v.drop n name)

/-- The names in a folder. -/
def list (v : Volume) (path : String) : Except Fault (List String) :=
  v.serve (.list path) do
    match v.node? (← v.find path) with
    | some (.folder _ entries) => pure (entries.map (·.1))
    | _ => .error .notFolder

/-- What is at a path. -/
def look (v : Volume) (path : String) : Except Fault Nat :=
  v.serve (.look path) (v.find path)

/-- Whether there is a folder at a path. -/
def isFolder (v : Volume) (path : String) : Bool :=
  match v.look path with
  | .ok n => (v.node? n).any Node.isFolder
  | .error _ => false

/-- An operation that changes the volume if it succeeds. -/
def change (op : Volume → Except Fault Volume) : StateM Volume (Except Fault Unit) := do
  match op (← get) with
  | .ok v =>
    set v
    return .ok ()
  | .error fault => return .error fault

instance : Host (StateM Volume) where
  read path := return (← get).read path
  write path text := change (·.write path text)
  makeFolder path := change (·.makeFolder path)
  remove path := change (·.remove path)
  list path := return (← get).list path
  isThere path := return ((← get).look path).isOk
  isFolder path := return (← get).isFolder path
  now := return (← get).clock
  input := return .ok (← get).input

end Volume

end Pipework.Disk
