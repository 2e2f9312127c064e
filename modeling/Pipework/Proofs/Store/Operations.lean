import Pipework.Proofs.Disk.Volume
import Pipework.Proofs.Store.Calls

/-!
# What the operations of a store may change

On a volume with symbolic and hard links that may refuse whatever it likes, an operation that fails
leaves everything as it is but for new folders, and one that succeeds changes one file: `Effect`.
Which one that is depends on links only as far as somebody has put one in the folder of the store.
The name that is given, if it is not refused, stands for an entry of that folder and for nothing
else (`exists_folderAt_of_locate`).

This is shown for one operation by what writing and removing a file do to a volume, spelled out in
`atomic_and_confined`, and carried over to any number of operations in `leaf?_afterwards`.
-/

namespace Pipework

open Disk (Fault Host Volume)
open Disk.Machine (IsFileName)
open Store (Call)

namespace Store

/-- What is asked of a store in a folder: a call, or the history is told or added to. -/
inductive Operation where
  | call (c : Call)
  | history
  | record (p : Pipeline) (yaml : String)

namespace Operation

/-- The name that an operation is about. -/
def name? : Operation → Option String
  | call c => c.name?
  | history => none
  | record .. => none

/-- The file that an operation changes. -/
def file? : Operation → Option String
  | call (.save name _) => some (FolderStore.fileOf name)
  | call (.delete name) => some (FolderStore.fileOf name)
  | record .. => some FolderStore.historyFile
  | call (.load _) | call .list | history => none

end Operation

end Store

open Store (Operation)

/-! ## Programs on a volume -/

namespace Disk.Volume

variable {α β : Type} {v v' : Volume} {R : Volume → Volume → Prop}
  {x : ExceptT Failure (StateM Volume) α} {f : α → ExceptT Failure (StateM Volume) β}

/-- What a program answers on a volume, and the volume afterwards. -/
def perform (v : Volume) (x : ExceptT Failure (StateM Volume) α) : Except Failure α × Volume :=
  x.run.run v

/-- A program goes on where the one before it ended, unless that failed. -/
lemma perform_bind (v : Volume) (x : ExceptT Failure (StateM Volume) α)
    (f : α → ExceptT Failure (StateM Volume) β) :
    v.perform (x >>= f) =
      match v.perform x with
      | (.ok a, v') => v'.perform (f a)
      | (.error e, v') => (.error e, v') := by
  unfold perform
  rw [ExceptT.run_bind, StateT.run_bind]
  rcases x.run.run v with ⟨e | a, v'⟩ <;> rfl

lemma perform_attempt (operation path : String) (op : StateM Volume (Except Fault α))
    (v : Volume) :
    v.perform (FolderStore.attempt operation path op) =
      ((op.run v).1.mapError fun fault => .file fault.message operation (some path),
        (op.run v).2) := by
  have hlift : v.perform (liftM op : ExceptT Failure (StateM Volume) (Except Fault α)) =
      (.ok (op.run v).1, (op.run v).2) := rfl
  rw [FolderStore.attempt, perform_bind, hlift]
  cases (op.run v).1 <;> rfl

/-- A program that changes nothing. -/
def Quiet (x : ExceptT Failure (StateM Volume) α) : Prop :=
  ∀ v : Volume, (v.perform x).2 = v

lemma Quiet.bind (hx : Quiet x) (hf : ∀ a, Quiet (f a)) : Quiet (x >>= f) := by
  intro v
  have hv := hx v
  rw [perform_bind]
  rcases hperform : v.perform x with ⟨e | a, v'⟩
  · rw [hperform] at hv
    exact hv
  · rw [hperform] at hv
    obtain rfl : v' = v := hv
    exact hf a v'

lemma Quiet.pure (a : α) : Quiet (Pure.pure a : ExceptT Failure (StateM Volume) α) := fun _ => rfl

lemma Quiet.throw (e : Failure) : Quiet (throw e : ExceptT Failure (StateM Volume) α) :=
  fun _ => rfl

lemma Quiet.attempt {op : StateM Volume (Except Fault α)} (hop : ∀ v, (op.run v).2 = v)
    (operation path : String) : Quiet (FolderStore.attempt operation path op) := by
  intro v
  rw [perform_attempt]
  exact hop v

lemma quiet_isThere (path : String) :
    Quiet (liftM (Host.isThere path : StateM Volume Bool) : ExceptT Failure (StateM Volume) Bool) :=
  fun _ => rfl

lemma quiet_checkThere (name path : String) : Quiet (FolderStore.checkThere name path) := by
  refine (quiet_isThere path).bind fun there => ?_
  cases there
  · exact .throw _
  · exact .pure _

lemma quiet_checkName (name : String) :
    Quiet (liftM (Store.checkName name) : ExceptT Failure (StateM Volume) Unit) := by
  unfold Store.checkName
  split
  · exact .pure ()
  · exact .throw _

/-- A text that a program puts in a file: the folder is made first, and it fails, or the text is
written. -/
inductive Puts (v : Volume) (path text : String) : Except Failure Unit → Volume → Prop where
  | failed {e : Failure} {v' : Volume} (h : Grows v v') : Puts v path text (.error e) v'
  | done {between v' : Volume} {k : Nat} (h : Grows v between)
    (hw : Written between path text k v') : Puts v path text (.ok ()) v'

lemma puts_write (operation path text : String) {v v' : Volume} (h : Grows v v') :
    v.Puts path text (v'.perform (FolderStore.attempt operation path (Host.write path text))).1
      (v'.perform (FolderStore.attempt operation path (Host.write path text))).2 := by
  have hrun : (Host.write path text : StateM Volume (Except Fault Unit)).run v' = _ :=
    run_change (·.write path text) v'
  rw [perform_attempt, hrun]
  cases hwrite : v'.write path text with
  | error fault => exact .failed h
  | ok v'' =>
    obtain ⟨k, hk⟩ := exists_written hwrite
    exact .done h hk

end Disk.Volume

namespace FolderStore

open Disk.Volume (Extends Grows Puts Quiet Written perform_attempt perform_bind quiet_checkName
  quiet_checkThere quiet_isThere)

variable {s : FolderStore} {v v' : Volume} {op : Operation} {result : Except Failure Unit}
  {name file text : String}

/-! ## Single programs -/

lemma quiet_load (s : FolderStore) (name : String) :
    Quiet (s.load name : ExceptT Failure (StateM Volume) Pipeline) := by
  refine (quiet_checkName name).bind fun _ => (quiet_checkThere name _).bind fun _ => ?_
  refine (Quiet.attempt (fun _ => rfl) _ _).bind fun text => ?_
  split
  · exact .pure _
  · exact .throw _

lemma quiet_list (s : FolderStore) :
    Quiet (s.list : ExceptT Failure (StateM Volume) (List String)) := by
  refine (quiet_isThere s.folder).bind fun there => ?_
  cases there
  · exact .pure _
  · exact (Quiet.attempt (fun _ => rfl) _ _).bind fun files => .pure _

lemma quiet_history (s : FolderStore) :
    Quiet (s.history : ExceptT Failure (StateM Volume) (List HistoryEntry)) := by
  refine (quiet_isThere s.historyPath).bind fun there => ?_
  cases there
  · exact .pure _
  · refine (Quiet.attempt (fun _ => rfl) _ _).bind fun text => ?_
    split
    · exact .pure _
    · exact .throw _

/-- A text is put in a file of the folder, which is made first. -/
lemma puts_put (s : FolderStore) (operation file text : String) (v : Volume) :
    let path := Disk.join s.folder file
    let put : ExceptT Failure (StateM Volume) Unit := do
      s.ensure
      attempt operation path (Host.write path text)
    v.Puts path text (v.perform put).1 (v.perform put).2 := by
  intro path put
  have hgrows : Grows v ((Disk.makeFolders s.folder : StateM Volume (Except Fault Unit)).run v).2 :=
    Disk.Volume.steps_makeFoldersWithin _ s.folder v
  have hensure : v.perform s.ensure = _ :=
    perform_attempt "create store directory" s.folder (Disk.makeFolders s.folder) v
  rw [perform_bind, hensure]
  cases ((Disk.makeFolders s.folder : StateM Volume (Except Fault Unit)).run v).1 with
  | error fault => exact .failed hgrows
  | ok => exact Disk.Volume.puts_write operation path text hgrows

/-- What an operation says, without what it tells, and the volume afterwards. -/
def outcome (s : FolderStore) (v : Volume) : Operation → Except Failure Unit × Volume
  | .call (.save name p) => v.perform (s.save name p)
  | .call (.load name) => (v.perform (s.load name)).map (Except.map fun _ => ()) id
  | .call .list => (v.perform s.list).map (Except.map fun _ => ()) id
  | .call (.delete name) => v.perform (s.delete name)
  | .history => (v.perform s.history).map (Except.map fun _ => ()) id
  | .record p yaml => v.perform (s.record p yaml)

/-- The text that an operation leaves in its file, if it leaves the file there. -/
def written? (s : FolderStore) (v : Volume) : Operation → Option String
  | .call (.save _ p) => some p.savedText
  | .record p yaml => (v.perform s.history).1.toOption.map (Contents.logText v.clock p yaml)
  | .call (.load _) | .call .list | .call (.delete _) | .history => none

lemma perform_checkName (v : Volume) (name : String) :
    v.perform (liftM (Store.checkName name) : ExceptT Failure (StateM Volume) Unit) =
      (Store.checkName name, v) := by
  cases Store.checkName name <;> rfl

/-- Names that no pipeline can be saved under are refused at once. -/
lemma outcome_of_invalid (s : FolderStore) (v : Volume) (h : name ∈ op.name?)
    (hname : ¬Store.isName name = true) :
    s.outcome v op = (.error (.invalidName name), v) := by
  have hcheck : Store.checkName name = .error (.invalidName name) := if_neg hname
  rcases op with (⟨other, p⟩ | other | - | other) | - | ⟨p, yaml⟩ <;> cases h
  · rw [outcome, save, perform_bind, perform_checkName, hcheck]
  · rw [outcome, load, perform_bind, perform_checkName, hcheck]
    rfl
  · rw [outcome, delete, perform_bind, perform_checkName, hcheck]

/-- Names that are not refused do not show in what is done. -/
lemma perform_of_valid {α : Type} (v : Volume) (hname : Store.isName name = true)
    (f : Unit → ExceptT Failure (StateM Volume) α) :
    v.perform (liftM (Store.checkName name) >>= f) = v.perform (f ()) := by
  have hcheck : Store.checkName name = .ok () := if_pos hname
  rw [perform_bind, perform_checkName, hcheck]

/-! ## One operation -/

/-- A text is in a file of the folder: the entry is that file, unless it is a link to it, and
nothing has changed under names that are not those of this file. -/
structure Stored (s : FolderStore) (file text : String) (v v' : Volume) (n k : Nat) : Prop where
  extend : Extends v v'
  folderAt_eq : v'.folderAt s.folder = some n
  exists_entry : ∃ there, v'.number? n file = some there ∧ (v'.isLink there = false → there = k)
  find_eq : v'.find (Disk.join s.folder file) = .ok k
  node?_eq : v'.node? k = some (.text text)
  leaf?_eq (m : Nat) (other : String) :
    v'.number? m other ≠ some k → v'.leaf? m other = v.leaf? m other

/-- A name of a file or of a link is gone from the folder, and nothing has changed under any other
name. -/
structure Removed (s : FolderStore) (file : String) (v v' : Volume) (n : Nat) : Prop where
  folderAt_eq : v.folderAt s.folder = some n
  number?_eq (m : Nat) (other : String) :
    v'.number? m other = if m = n ∧ other = file then none else v.number? m other
  leaf?_eq (m : Nat) (other : String) :
    ¬(m = n ∧ other = file) → v'.leaf? m other = v.leaf? m other

/-- What an operation may do to a volume: nothing, or folders are made and it fails, or one file in
the folder of the store gets its text or goes away.  One that changes a file succeeds only in doing
so. -/
inductive Effect (s : FolderStore) (v : Volume) (op : Operation) :
    Except Failure Unit → Volume → Prop where
  | idle {result : Except Failure Unit} (hfile : result = .ok () → op.file? = none) :
    Effect s v op result v
  | failed {file : String} {e : Failure} {v' : Volume} (hfile : op.file? = some file)
    (h : Grows v v') : Effect s v op (.error e) v'
  | stored {file text : String} {v' : Volume} {n k : Nat} (hfile : op.file? = some file)
    (hname : IsFileName file) (htext : s.written? v op = some text)
    (h : s.Stored file text v v' n k) : Effect s v op (.ok ()) v'
  | removed {file : String} {v' : Volume} {n : Nat} (hfile : op.file? = some file)
    (hname : IsFileName file) (htext : s.written? v op = none) (h : s.Removed file v v' n) :
    Effect s v op (.ok ()) v'

lemma isEntry_of_isFileName (h : IsFileName file) : Disk.IsEntry file := ⟨h.not_idle, h.not_up⟩

/-- Putting a text in a file of the folder is about that file. -/
lemma effect_of_puts (h : v.Puts (Disk.join s.folder file) text result v') (hname : IsFileName file)
    (hfile : op.file? = some file) (htext : s.written? v op = some text) :
    s.Effect v op result v' := by
  cases h with
  | failed h => exact .failed hfile h
  | done hgrows hwritten =>
    obtain ⟨n, there, hfolder, hthere, hdirect⟩ :=
      Disk.Volume.exists_entry_of_find (isEntry_of_isFileName hname) hname.slash hwritten.find_eq
    exact .stored hfile hname htext
      { extend := hgrows.extend.trans hwritten.extend
        folderAt_eq := hfolder
        exists_entry := ⟨there, hthere, hdirect⟩
        find_eq := hwritten.find_eq
        node?_eq := hwritten.node?_eq
        leaf?_eq := fun m other hother =>
          (hwritten.leaf?_eq hother).trans (hgrows.leaf?_eq m other) }

lemma effect_save (s : FolderStore) (v : Volume) (hname : Store.isName name = true) (p : Pipeline) :
    s.Effect v (.call (.save name p)) (v.perform (s.save name p)).1
      (v.perform (s.save name p)).2 := by
  rw [save, perform_of_valid v hname]
  exact effect_of_puts (puts_put s "save config" (fileOf name) p.savedText v)
    (isFileName_fileOf hname) rfl rfl

lemma effect_delete (s : FolderStore) (v : Volume) (hname : Store.isName name = true) :
    s.Effect v (.call (.delete name)) (v.perform (s.delete name)).1
      (v.perform (s.delete name)).2 := by
  have hfile := isFileName_fileOf hname
  have hquiet : (v.perform (checkThere name (s.pathOf name))).2 = v := quiet_checkThere name _ v
  have hrun : (Host.remove (s.pathOf name) : StateM Volume (Except Fault Unit)).run v = _ :=
    Disk.Volume.run_change (·.remove (s.pathOf name)) v
  rw [delete, perform_of_valid v hname, perform_bind]
  rcases hthere : v.perform (checkThere name (s.pathOf name)) with ⟨e | ⟨⟩, v'⟩
  · rw [hthere] at hquiet
    obtain rfl : v' = v := hquiet
    exact .idle (by simp)
  · rw [hthere] at hquiet
    obtain rfl : v' = v := hquiet
    simp only
    rw [perform_attempt, hrun]
    cases hremove : v'.remove (s.pathOf name) with
    | error fault => exact .idle (by simp [Except.mapError])
    | ok after =>
      obtain ⟨n, other, k, hspot, parent, entries, hn, rfl⟩ := Disk.Volume.removed_of_remove hremove
      obtain ⟨m, rest, hfolder, hleads⟩ :=
        Disk.Volume.exists_folderAt (isEntry_of_isFileName hfile) hfile.slash hspot
      obtain ⟨rfl, rfl, -, -⟩ :=
        Disk.Volume.Spot.entry.inj (hleads.eq_entry (isEntry_of_isFileName hfile))
      exact .removed rfl hfile rfl
        { folderAt_eq := hfolder
          number?_eq := Disk.Volume.number?_drop hn _
          leaf?_eq := fun m other hother => Disk.Volume.leaf?_drop hn hother }

lemma effect_record (s : FolderStore) (v : Volume) (p : Pipeline) (yaml : String) :
    s.Effect v (.record p yaml) (v.perform (s.record p yaml)).1
      (v.perform (s.record p yaml)).2 := by
  have hquiet := quiet_history s v
  have hnow (v : Volume) : v.perform (liftM (Host.now : StateM Volume Time.Instant) :
      ExceptT Failure (StateM Volume) Time.Instant) = (.ok v.clock, v) := rfl
  rw [record, perform_bind]
  rcases hold : v.perform s.history with ⟨e | entries, v'⟩
  · rw [hold] at hquiet
    obtain rfl : v' = v := hquiet
    exact .idle (by simp)
  · rw [hold] at hquiet
    obtain rfl : v' = v := hquiet
    simp only
    rw [perform_bind, hnow]
    refine effect_of_puts (puts_put s "write history" historyFile _ v') isFileName_historyFile rfl
      ?_
    rw [written?, hold]
    rfl

/-- What each operation does. -/
theorem effect_outcome (s : FolderStore) (v : Volume) (op : Operation) :
    s.Effect v op (s.outcome v op).1 (s.outcome v op).2 := by
  by_cases hvalid : ∀ name ∈ op.name?, Store.isName name = true
  · rcases op with (⟨name, p⟩ | name | - | name) | - | ⟨p, yaml⟩
    · exact effect_save s v (hvalid name rfl) p
    · have hsame : (s.outcome v (.call (.load name))).2 = v := quiet_load s name v
      rw [hsame]
      exact .idle fun _ => rfl
    · have hsame : (s.outcome v (.call .list)).2 = v := quiet_list s v
      rw [hsame]
      exact .idle fun _ => rfl
    · exact effect_delete s v (hvalid name rfl)
    · have hsame : (s.outcome v .history).2 = v := quiet_history s v
      rw [hsame]
      exact .idle fun _ => rfl
    · exact effect_record s v p yaml
  · push Not at hvalid
    obtain ⟨name, hname, hrefused⟩ := hvalid
    rw [outcome_of_invalid s v hname hrefused]
    exact .idle (by simp)

/-- The path of a saved pipeline leads to its name in the folder of the store, where a link is not
followed. -/
lemma exists_folderAt_of_locate {spot : Disk.Volume.Spot} (hname : Store.isName name = true)
    (h : v.locate false (s.pathOf name) = .ok spot) :
    ∃ n, v.folderAt s.folder = some n ∧
      spot = .entry n (fileOf name) false (v.number? n (fileOf name)) := by
  have hfile := isFileName_fileOf hname
  obtain ⟨n, rest, hfolder, hleads⟩ :=
    Disk.Volume.exists_folderAt (isEntry_of_isFileName hfile) hfile.slash h
  exact ⟨n, hfolder, hleads.eq_entry (isEntry_of_isFileName hfile)⟩

/-- The volume after some operations. -/
def afterwards (s : FolderStore) (v : Volume) (ops : List Operation) : Volume :=
  ops.foldl (fun v op => (s.outcome v op).2) v

/-- What stands under a name is what an operation may change, if it is the entry of the file that
the operation is about, or another name of the file that this leads to. -/
def Touches (s : FolderStore) (v v' : Volume) (op : Operation) (n : Nat) (name : String) : Prop :=
  ∃ file ∈ op.file?, v.folderAt s.folder = some n ∧ name = file ∨
    ∃ k, v'.find (Disk.join s.folder file) = .ok k ∧ v'.number? n name = some k

/-- One operation leaves alone what it does not touch. -/
lemma Effect.leaf?_eq (h : s.Effect v op result v') {n : Nat} (hname : ¬s.Touches v v' op n name) :
    v'.leaf? n name = v.leaf? n name := by
  cases h with
  | idle => rfl
  | failed _ h => exact h.leaf?_eq n name
  | stored hfile _ _ h =>
    exact h.leaf?_eq n name fun hentry => hname ⟨_, hfile, .inr ⟨_, h.find_eq, hentry⟩⟩
  | removed hfile _ _ h =>
    refine h.leaf?_eq n name ?_
    rintro ⟨rfl, rfl⟩
    exact hname ⟨_, hfile, .inl ⟨h.folderAt_eq, rfl⟩⟩

/-- Whatever is done, what stands under a name stays as it is unless one of the operations touches
it. -/
theorem leaf?_afterwards (s : FolderStore) (v : Volume) (ops : List Operation) {n : Nat}
    (hname : ∀ before op after, ops = before ++ op :: after →
      ¬s.Touches (s.afterwards v before) (s.outcome (s.afterwards v before) op).2 op n name) :
    (s.afterwards v ops).leaf? n name = v.leaf? n name := by
  induction ops generalizing v with
  | nil => rfl
  | cons op ops ih =>
    have hstep := (effect_outcome s v op).leaf?_eq (hname [] op ops rfl)
    refine (ih (s.outcome v op).2 fun before other after hops => ?_).trans hstep
    exact hname (op :: before) other after (by rw [hops, List.cons_append])

end FolderStore

end Pipework
