import Pipework.Proofs.Disk.Files
import Pipework.Proofs.Store.Contents

/-!
# What the operations of a store do on any machine

Every operation is a check of the name, questions to the machine and at most one change of a file.
One equation for each of them says what it answers and what the machine is afterwards, whatever the
folder of the store has in it: `perform_load_eq`, `perform_list_eq`, `perform_save_eq`,
`perform_delete_eq`, `perform_history_eq` and `perform_record_eq`.

What is written goes through `put`, and `Machine.Writes` says what becomes of the files then.
-/

namespace Pipework

open Disk (Fault Host Machine)

/-! ## Operations that can fail -/

namespace Disk.Machine

variable {α β : Type} {d d' : Machine} {x : ExceptT Failure (StateM Machine) α}
  {f : α → ExceptT Failure (StateM Machine) β}

/-- What an operation answers on a machine, and the machine afterwards. -/
def perform (d : Machine) (x : ExceptT Failure (StateM Machine) α) : Except Failure α × Machine :=
  x.run.run d

lemma perform_bind_ok {a : α} (h : d.perform x = (.ok a, d')) :
    d.perform (x >>= f) = d'.perform (f a) := by
  rw [perform, ExceptT.run_bind, run_bind_eq h]
  rfl

lemma perform_bind_error {e : Failure} (h : d.perform x = (.error e, d')) :
    d.perform (x >>= f) = (.error e, d') := by
  rw [perform, ExceptT.run_bind, run_bind_eq h]
  rfl

lemma perform_lift {op : StateM Machine α} {a : α} (h : op.run d = (a, d')) :
    d.perform (liftM op : ExceptT Failure (StateM Machine) α) = (.ok a, d') := by
  have hrun : (liftM op : ExceptT Failure (StateM Machine) α).run.run d =
      ((Except.ok (op.run d).1, (op.run d).2) : Except Failure α × Machine) := rfl
  rw [perform, hrun, h]

lemma perform_attempt_ok {op : StateM Machine (Except Fault α)} {a : α} (operation path : String)
    (h : op.run d = (.ok a, d')) :
    d.perform (FolderStore.attempt operation path op) = (.ok a, d') := by
  have hlift : d.perform (liftM op : ExceptT Failure (StateM Machine) (Except Fault α)) =
      (.ok (.ok a), d') := perform_lift h
  rw [FolderStore.attempt, perform_bind_ok hlift]
  rfl

lemma perform_attempt_error {op : StateM Machine (Except Fault α)} {fault : Fault}
    (operation path : String) (h : op.run d = (.error fault, d')) :
    d.perform (FolderStore.attempt operation path op) =
      (.error (.file fault.message operation (some path)), d') := by
  have hlift : d.perform (liftM op : ExceptT Failure (StateM Machine) (Except Fault α)) =
      (.ok (.error fault), d') := perform_lift h
  rw [FolderStore.attempt, perform_bind_ok hlift]
  rfl

/-- Reading a file and then doing something that changes nothing. -/
lemma perform_attempt_read {operation path : String}
    {g : String → ExceptT Failure (StateM Machine) α} {answer : String → Except Failure α}
    (h : ∀ text, d.perform (g text) = (answer text, d)) :
    d.perform (FolderStore.attempt operation path (Host.read path) >>= g) =
      (match d.read path with
        | .ok text => answer text
        | .error fault => .error (.file fault.message operation (some path)), d) := by
  have hrun : (Host.read path : StateM Machine (Except Fault String)).run d = (d.read path, d) :=
    rfl
  cases hread : d.read path with
  | error fault =>
    rw [hread] at hrun
    exact perform_bind_error (perform_attempt_error operation path hrun)
  | ok text =>
    rw [hread] at hrun
    exact (perform_bind_ok (perform_attempt_ok operation path hrun)).trans (h text)

/-- A change is made, or it fails and the machine stays as it is. -/
lemma perform_attempt_change (op : Machine → Except Fault Machine) (operation path : String)
    (d : Machine) :
    d.perform (FolderStore.attempt operation path (change op)) =
      match op d with
      | .ok d' => (.ok (), d')
      | .error fault => (.error (.file fault.message operation (some path)), d) := by
  cases hop : op d with
  | error fault => exact perform_attempt_error operation path (run_change_error op hop)
  | ok d' => exact perform_attempt_ok operation path (run_change_ok op hop)

/-- What an operation that writes a file does: a file operation fails and all files are as they were,
or the file has its text, and all others are as they were. -/
inductive Writes (d : Machine) (path text : String) : Except Failure Unit → Machine → Prop where
  | failed {reason operation : String} {place : Option String} {d' : Machine} (hext : Extends d d')
    (hsame : SameFiles d d') : d.Writes path text (.error (.file reason operation place)) d'
  | done {d' : Machine} {way : List String} (hext : Extends d d') (htext : d'.HasText path way text)
    (hsame : SameFilesBut way d d') : d.Writes path text (.ok ()) d'

lemma Writes.after {path text : String} {d'' : Machine} {result : Except Failure Unit}
    (h : d'.Writes path text result d'') (hext : Extends d d') (hsame : SameFiles d d') :
    d.Writes path text result d'' := by
  cases h with
  | failed hext' hsame' => exact .failed (hext.trans hext') (hsame.trans hsame')
  | done hext' htext hsame' => exact .done (hext.trans hext') htext ((hsame.but _).trans hsame')

/-- Writing a file. -/
lemma writes_attempt (operation path text : String) (d : Machine) :
    d.Writes path text (d.perform (FolderStore.attempt operation path (Host.write path text))).1
      (d.perform (FolderStore.attempt operation path (Host.write path text))).2 := by
  have hchange : d.perform (FolderStore.attempt operation path (Host.write path text)) = _ :=
    perform_attempt_change (·.write path text) operation path d
  rw [hchange]
  cases hwrite : d.write path text with
  | error fault => exact .failed (.refl d) (.refl d)
  | ok d' =>
    obtain ⟨way, htext, hext, hsame⟩ := hasText_of_write hwrite
    exact .done hext htext hsame

/-- Making folders and then writing a file. -/
lemma writes_makeFolders (operation folder operation' path text : String) (d : Machine) :
    let write : ExceptT Failure (StateM Machine) Unit := do
      FolderStore.attempt operation folder (makeFolders folder)
      FolderStore.attempt operation' path (Host.write path text)
    d.Writes path text (d.perform write).1 (d.perform write).2 := by
  intro write
  cases hrun : (makeFolders folder : StateM Machine (Except Fault Unit)).run d with
  | mk result d' =>
    obtain ⟨hext, hsame⟩ := keeps_of_makeFolders hrun
    cases result with
    | error fault =>
      have hwrite : d.perform write = _ :=
        perform_bind_error (perform_attempt_error operation folder hrun)
      rw [hwrite]
      exact .failed hext hsame
    | ok =>
      have hwrite : d.perform write = _ :=
        perform_bind_ok (perform_attempt_ok operation folder hrun)
      rw [hwrite]
      exact (writes_attempt operation' path text d').after hext hsame

lemma perform_isThere (d : Machine) (path : String) :
    d.perform (liftM (Host.isThere path : StateM Machine Bool) :
      ExceptT Failure (StateM Machine) Bool) = (.ok (d.find path).isOk, d) :=
  perform_lift rfl

lemma perform_checkThere (d : Machine) (name path : String) :
    d.perform (FolderStore.checkThere name path) =
      (if (d.find path).isOk then .ok () else .error (.notFound name), d) := by
  rw [FolderStore.checkThere, perform_bind_ok (perform_isThere d path)]
  cases (d.find path).isOk <;> rfl

end Disk.Machine

/-! ## Equations of the operations -/

namespace FolderStore

open Disk.Machine (perform_attempt_change perform_attempt_error perform_attempt_ok
  perform_attempt_read perform_bind_error perform_bind_ok perform_checkThere perform_isThere
  perform_lift)
open Store (historyCodec)

/-! ### Names -/

section

variable {s : FolderStore} {name : String}

lemma perform_checkName_ok (d : Machine) (h : Store.isName name = true) :
    d.perform (liftM (Store.checkName name) : ExceptT Failure (StateM Machine) Unit) =
      (.ok (), d) := by
  rw [Store.checkName, if_pos h]
  rfl

lemma perform_checkName_error (d : Machine) (h : ¬Store.isName name = true) :
    d.perform (liftM (Store.checkName name) : ExceptT Failure (StateM Machine) Unit) =
      (.error (.invalidName name), d) := by
  rw [Store.checkName, if_neg h]
  rfl

theorem perform_save_invalid (d : Machine) (hname : ¬Store.isName name = true) (p : Pipeline) :
    d.perform (s.save name p) = (.error (.invalidName name), d) := by
  rw [save]
  exact perform_bind_error (perform_checkName_error d hname)

theorem perform_load_invalid (d : Machine) (hname : ¬Store.isName name = true) :
    d.perform (s.load name) = (.error (.invalidName name), d) := by
  rw [load]
  exact perform_bind_error (perform_checkName_error d hname)

theorem perform_delete_invalid (d : Machine) (hname : ¬Store.isName name = true) :
    d.perform (s.delete name) = (.error (.invalidName name), d) := by
  rw [delete]
  exact perform_bind_error (perform_checkName_error d hname)

end

/-! ### Reading -/

/-- A pipeline is what its file tells, if that is there. -/
lemma perform_load_eq (s : FolderStore) (d : Machine) {name : String}
    (hname : Store.isName name = true) :
    d.perform (s.load name) =
      (if (d.find (s.pathOf name)).isOk then
        match d.read (s.pathOf name) with
        | .ok text => ((Record.ofJsonText text).map (·.pipeline)).mapError (·.failure)
        | .error fault => .error (.file fault.message "load config" (some (s.pathOf name)))
      else .error (.notFound name), d) := by
  have hthere := perform_checkThere d name (s.pathOf name)
  rw [load, perform_bind_ok (perform_checkName_ok d hname)]
  cases hfound : (d.find (s.pathOf name)).isOk with
  | false =>
    rw [hfound] at hthere
    exact perform_bind_error hthere
  | true =>
    rw [hfound] at hthere
    rw [perform_bind_ok hthere]
    refine perform_attempt_read fun text => ?_
    cases Record.ofJsonText text <;> rfl

/-- Loading changes nothing, whatever there is to load. -/
lemma perform_load_machine (s : FolderStore) (d : Machine) (name : String) :
    (d.perform (s.load name)).2 = d := by
  by_cases hname : Store.isName name = true
  · rw [perform_load_eq s d hname]
  · rw [perform_load_invalid d hname]

/-- What is listed are the names of the files that hold pipelines. -/
lemma perform_list_eq (s : FolderStore) (d : Machine) :
    d.perform s.list =
      (if (d.find s.folder).isOk then
        match d.list s.folder with
        | .ok files => .ok ((files.filterMap nameOf?).mergeSort fun a b => !decide (b < a))
        | .error fault => .error (.file fault.message "list configs" (some s.folder))
      else .ok [], d) := by
  rw [list, perform_bind_ok (perform_isThere d s.folder)]
  cases (d.find s.folder).isOk with
  | false => rfl
  | true =>
    have hrun : (Host.list s.folder : StateM Machine (Except Fault (List String))).run d =
        (d.list s.folder, d) := rfl
    simp only [Bool.not_true, Bool.false_eq_true, if_false, if_true]
    cases hlist : d.list s.folder with
    | error fault =>
      rw [hlist] at hrun
      exact perform_bind_error (perform_attempt_error _ _ hrun)
    | ok files =>
      rw [hlist] at hrun
      exact perform_bind_ok (perform_attempt_ok _ _ hrun)

/-- The history is what its file tells, if that is there. -/
lemma perform_history_eq (s : FolderStore) (d : Machine) :
    d.perform s.history =
      (if (d.find s.historyPath).isOk then
        match d.read s.historyPath with
        | .ok text => (historyCodec.ofText text).mapError fun e => .unreadable e.message
        | .error fault => .error (.file fault.message "read history" (some s.historyPath))
      else .ok [], d) := by
  rw [history, perform_bind_ok (perform_isThere d s.historyPath)]
  cases (d.find s.historyPath).isOk with
  | false => rfl
  | true =>
    refine perform_attempt_read fun text => ?_
    cases historyCodec.ofText text <;> rfl

/-! ### Writing -/

/-- A text put in a file of the folder, which is made first. -/
def put (s : FolderStore) (operation file text : String) (d : Machine) :
    Except Failure Unit × Machine :=
  match d.perform s.ensure with
  | (.error e, d') => (.error e, d')
  | (.ok (), d') =>
    match d'.write (Disk.join s.folder file) text with
    | .ok d'' => (.ok (), d'')
    | .error fault => (.error (.file fault.message operation (some (Disk.join s.folder file))), d')

lemma perform_put (s : FolderStore) (operation file text : String) (d : Machine) :
    d.perform (do
        s.ensure
        attempt operation (Disk.join s.folder file) (Host.write (Disk.join s.folder file) text)) =
      s.put operation file text d := by
  rw [put]
  split
  case h_1 e d' hensure => exact perform_bind_error hensure
  case h_2 d' hensure =>
    exact (perform_bind_ok hensure).trans
      (perform_attempt_change (·.write (Disk.join s.folder file) text) operation _ d')

/-- A text that is put in a file is written in full or not at all. -/
theorem writes_put (s : FolderStore) (operation file text : String) (d : Machine) :
    d.Writes (Disk.join s.folder file) text (s.put operation file text d).1
      (s.put operation file text d).2 := by
  rw [← perform_put]
  exact Machine.writes_makeFolders _ s.folder operation _ text d

/-- Whether a text can be put in a file does not depend on the text. -/
lemma isOk_put (s : FolderStore) (operation file text other : String) (d : Machine) :
    (s.put operation file text d).1.isOk = ((d.perform s.ensure).1.isOk &&
      ((d.perform s.ensure).2.write (Disk.join s.folder file) other).isOk) := by
  rw [put]
  split
  case h_1 e d' hensure =>
    rw [hensure]
    rfl
  case h_2 d' hensure =>
    rw [hensure, Machine.isOk_write d' _ other text]
    cases d'.write (Disk.join s.folder file) text <;> rfl

/-- A pipeline is put in its file. -/
lemma perform_save_eq (s : FolderStore) (d : Machine) {name : String}
    (hname : Store.isName name = true) (p : Pipeline) :
    d.perform (s.save name p) = s.put "save config" (fileOf name) p.savedText d := by
  rw [save, perform_bind_ok (perform_checkName_ok d hname)]
  exact perform_put s "save config" (fileOf name) p.savedText d

/-- The file of a pipeline is removed, if it is there. -/
lemma perform_delete_eq (s : FolderStore) (d : Machine) {name : String}
    (hname : Store.isName name = true) :
    d.perform (s.delete name) =
      if (d.find (s.pathOf name)).isOk then
        match d.remove (s.pathOf name) with
        | .ok d' => (.ok (), d')
        | .error fault =>
          (.error (.file fault.message "delete config" (some (s.pathOf name))), d)
      else (.error (.notFound name), d) := by
  have hthere := perform_checkThere d name (s.pathOf name)
  rw [delete, perform_bind_ok (perform_checkName_ok d hname)]
  cases hfound : (d.find (s.pathOf name)).isOk with
  | false =>
    rw [hfound] at hthere
    exact perform_bind_error hthere
  | true =>
    rw [hfound] at hthere
    rw [perform_bind_ok hthere]
    exact perform_attempt_change (·.remove (s.pathOf name)) "delete config" (s.pathOf name) d

/-- A generated pipeline is added to the history that can be read. -/
lemma perform_record_eq (s : FolderStore) (d : Machine) (p : Pipeline) (yaml : String) :
    d.perform (s.record p yaml) =
      match (d.perform s.history).1 with
      | .error e => (.error e, d)
      | .ok entries =>
        s.put "write history" historyFile (Contents.logText d.clock p yaml entries) d := by
  have hhistory := perform_history_eq s d
  have hnow : d.perform (liftM (Host.now : StateM Machine Time.Instant) :
      ExceptT Failure (StateM Machine) Time.Instant) = (.ok d.clock, d) :=
    perform_lift rfl
  rw [record, hhistory]
  split
  case h_1 e he =>
    simp only at he
    rw [he] at hhistory
    exact perform_bind_error hhistory
  case h_2 entries hentries =>
    simp only at hentries
    rw [hentries] at hhistory
    rw [perform_bind_ok hhistory, perform_bind_ok hnow]
    exact perform_put s "write history" historyFile _ d

end FolderStore

end Pipework
