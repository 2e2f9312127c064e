import Pipework.Proofs.Pipeline.Record
import Pipework.Proofs.Store.Perform

/-!
# The operations on a folder of saved pipelines

`Keeps s can d c` says that the folder of a store keeps some contents on a machine, or that it does
not exist yet, where `can` says whether it can be made.  Each operation then acts on the contents,
whatever else there is on the machine: `perform_load`, `perform_list`, `perform_save`,
`perform_delete`, `perform_history` and `perform_record`.
-/

namespace Pipework

open Disk (Fault Host Machine Tree)

/-! ## The folder of a store -/

namespace FolderStore

open Disk.Machine (Lacks Opens)

/-- The folder of a store keeps some contents, or it does not exist yet, and can be made or not. -/
inductive Keeps (s : FolderStore) (can : Bool) : Machine → Contents → Prop where
  | lacking {d : Machine} (h : Lacks d s.folder) (hcan : d.canMake s.folder = can) :
    Keeps s can d {}
  | opened {d : Machine} {c : Contents} {way : List String} {entries : List (String × Tree)}
    (hne : s.folder ≠ "") (hcan : can = true) (h : Opens d s.folder way entries) (hvalid : c.Valid)
    (hholds : c.Holds entries) : Keeps s can d c

variable {s : FolderStore} {can : Bool} {d : Machine} {c : Contents}

lemma Keeps.valid (h : s.Keeps can d c) : c.Valid := by
  cases h with
  | lacking => exact Contents.valid_empty
  | opened _ _ _ hvalid => exact hvalid

/-- The time does not matter. -/
lemma Keeps.setClock (h : s.Keeps can d c) (t : Time.Instant) : s.Keeps can (d.setClock t) c := by
  cases h with
  | lacking h hcan =>
    exact .lacking ⟨h.ne_empty, h.not_found, h.not_beside⟩ ((Machine.canMake_setClock t).trans hcan)
  | opened hne hcan h hvalid hholds =>
    exact .opened hne hcan ⟨h.folderAt_eq, h.get?_eq⟩ hvalid hholds

/-- What is found in the folder. -/
lemma Keeps.find_eq (h : s.Keeps can d c) {file : String} (hfile : Machine.IsFileName file) :
    (d.find (Disk.join s.folder file)).toOption = c.file? file := by
  cases h with
  | lacking h hcan =>
    have hnone : d.folderAt s.folder = none := by
      rw [Option.eq_none_iff_forall_ne_some]
      intro way hway
      obtain ⟨entries, hfind⟩ := (Machine.exists_folder_iff h.ne_empty).2 ⟨way, hway⟩
      exact h.not_found _ hfind
    obtain ⟨fault, hlocate⟩ := Machine.locate_join_of_folderAt_eq_none h.ne_empty hfile hnone
    rw [Machine.find_eq, hlocate, ← Contents.holds_nil.get?_eq]
    rfl
  | opened hne hcan h hvalid hholds =>
    by_cases hlong : Machine.nameLimit < file.utf8ByteSize
    · rw [h.find_join_long hne hfile hlong, hvalid.file?_eq_none hlong]
      rfl
    · rw [h.find_join hne hfile (Nat.not_lt.1 hlong), hholds.get?_eq]
      cases c.file? file <;> rfl

lemma Keeps.isOk_find (h : s.Keeps can d c) {file : String} (hfile : Machine.IsFileName file) :
    (d.find (Disk.join s.folder file)).isOk = (c.file? file).isSome := by
  rw [← h.find_eq hfile]
  cases d.find (Disk.join s.folder file) <;> rfl

lemma Keeps.read_eq (h : s.Keeps can d c) {file text : String} (hfile : Machine.IsFileName file)
    (htext : c.file? file = some (.text text)) : d.read (Disk.join s.folder file) = .ok text := by
  rw [← h.find_eq hfile] at htext
  rw [Machine.read]
  cases hfind : d.find (Disk.join s.folder file) with
  | error fault =>
    rw [hfind] at htext
    cases htext
  | ok t =>
    rw [hfind] at htext
    obtain rfl := Option.some.inj htext
    rfl

/-! ## Reading -/

open Disk.Machine (perform_attempt_ok perform_attempt_error)

/-- A file of a pipeline is there if the pipeline is saved. -/
lemma Keeps.isOk_find_pathOf (h : s.Keeps can d c) {name : String} (hname : Admissible name) :
    (d.find (s.pathOf name)).isOk = (Named.get? name c.snapshots).isSome := by
  have hfound : (d.find (s.pathOf name)).isOk = (c.file? (fileOf name)).isSome :=
    h.isOk_find (isFileName_fileOf hname.isName)
  rw [hfound, c.file?_fileOf hname, Option.isSome_map]

/-- A saved pipeline is loaded with its axes in their order. -/
theorem perform_load (h : s.Keeps can d c) {name : String} (hname : Admissible name) :
    d.perform (s.load name) =
      (match Named.get? name c.snapshots with
        | some p => .ok p.sortAxes
        | none => .error (.notFound name), d) := by
  have hcontents := c.file?_fileOf hname
  rw [perform_load_eq s d hname.isName, h.isOk_find_pathOf hname]
  cases hget : Named.get? name c.snapshots with
  | none => rfl
  | some p =>
    rw [hget] at hcontents
    have hread : d.read (s.pathOf name) = .ok p.savedText :=
      h.read_eq (isFileName_fileOf hname.isName) hcontents
    rw [hread, Pipeline.savedText]
    simp only [Option.isSome_some, if_true, Record.ofJsonText_toJsonText]
    rfl

/-- The files of the saved pipelines tell their names. -/
lemma mem_filterMap_nameOf? {entries : List (String × Tree)} (hvalid : c.Valid)
    (hholds : c.Holds entries) (name : String) :
    name ∈ (entries.map (·.1)).filterMap nameOf? ↔ name ∈ c.snapshots.map (·.1) := by
  have hmem : ∀ file, file ∈ entries.map (·.1) ↔ c.file? file ≠ none := fun file => by
    rw [← hholds.get?_eq, ne_eq, Named.get?_eq_none_iff, not_not]
  have hsaved : name ∈ c.snapshots.map (·.1) ↔ Named.get? name c.snapshots ≠ none := by
    rw [ne_eq, Named.get?_eq_none_iff, not_not]
  rw [List.mem_filterMap]
  constructor
  · rintro ⟨file, hfile, hname⟩
    obtain ⟨-, hother, rfl⟩ := nameOf?_eq_some_iff.1 hname
    rw [hmem, Contents.file?] at hfile
    split at hfile
    case isTrue heq =>
      rw [← fileOf_history] at heq
      exact absurd (fileOf_injective heq) hother
    case isFalse =>
      rw [hsaved]
      intro hnone
      exact hfile (by simp [hname, hnone])
  · intro hname
    have hadmissible := hvalid.admissible name hname
    refine ⟨fileOf name, ?_, ?_⟩
    · rw [hmem, c.file?_fileOf hadmissible, ne_eq, Option.map_eq_none_iff]
      exact hsaved.1 hname
    · exact nameOf?_eq_some_iff.2
        ⟨ne_empty_of_isName hadmissible.isName, hadmissible.ne_history, rfl⟩

/-- The names are listed in their order. -/
theorem perform_list (h : s.Keeps can d c) :
    d.perform s.list = (.ok (c.snapshots.map (·.1)), d) := by
  rw [perform_list_eq]
  cases h with
  | lacking h hcan =>
    have hnone : (d.find s.folder).isOk = false := by
      cases hfind : d.find s.folder with
      | error => rfl
      | ok t => exact absurd hfind (h.not_found t)
    rw [hnone]
    rfl
  | @opened _ way entries hne hcan h hvalid hholds =>
    have hfind := (Machine.find_eq_folder_iff hne).2 ⟨way, h.folderAt_eq, h.get?_eq⟩
    have hlist : d.list s.folder = .ok (entries.map (·.1)) := by
      rw [Machine.list, hfind]
      rfl
    have hnodup : ((entries.map (·.1)).filterMap nameOf?).Nodup := by
      refine hholds.ordered.nodup.filterMap fun file file' name hfile hfile' => ?_
      rw [(nameOf?_eq_some_iff.1 hfile).2.2, (nameOf?_eq_some_iff.1 hfile').2.2]
    have hsort := mergeSort_eq hnodup hvalid.ordered (mem_filterMap_nameOf? hvalid hholds)
    rw [hfind, hlist]
    simp only [hsort]
    rfl

/-- The history is what the text tells. -/
theorem perform_history (h : s.Keeps can d c) : d.perform s.history = (c.history, d) := by
  have hfound : (d.find s.historyPath).isOk = (c.file? historyFile).isSome :=
    h.isOk_find isFileName_historyFile
  have hcontents := c.file?_history
  rw [perform_history_eq, hfound, hcontents, Contents.history]
  cases hlog : c.log with
  | none => rfl
  | some text =>
    rw [hlog] at hcontents
    have hread : d.read s.historyPath = .ok text := h.read_eq isFileName_historyFile hcontents
    rw [hread]
    rfl

/-! ## Writing -/

/-- Where the folder can be made it is there afterwards. -/
lemma perform_ensure (h : s.Keeps true d c) :
    ∃ d' way entries, d.perform s.ensure = (.ok (), d') ∧ s.folder ≠ "" ∧
      Opens d' s.folder way entries ∧ c.Holds entries := by
  cases h with
  | lacking h hcan =>
    obtain ⟨d', way, hrun, -, hopens⟩ := Machine.run_makeFolders_of_canMake h hcan
    exact ⟨d', way, [], perform_attempt_ok _ _ hrun, h.ne_empty, hopens, Contents.holds_nil⟩
  | @opened _ way entries hne _ h hvalid hholds =>
    exact ⟨d, way, entries, perform_attempt_ok _ _ (Machine.run_makeFolders_of_opens hne h), hne, h,
      hholds⟩

lemma perform_ensure_error (h : s.Keeps false d c) :
    ∃ reason operation path d', d.perform s.ensure = (.error (.file reason operation path), d') ∧
      s.Keeps false d' c := by
  cases h with
  | lacking h hcan =>
    obtain ⟨fault, d', hrun, -, hlacks, hcan'⟩ := Machine.run_makeFolders_of_not_canMake h hcan
    exact ⟨_, _, _, d', perform_attempt_error _ _ hrun, .lacking hlacks hcan'⟩
  | opened _ hcan => cases hcan

section Put

variable {file : String}

/-- A text is put in a file of the folder. -/
lemma put_ok (h : s.Keeps true d c) (hfile : Machine.IsFileName file)
    (hshort : file.utf8ByteSize ≤ Machine.nameLimit) (operation text : String) :
    ∃ d' way entries, s.put operation file text d = (.ok (), d') ∧ s.folder ≠ "" ∧
      Opens d' s.folder way (Named.insert file (.text text) entries) ∧ c.Holds entries := by
  obtain ⟨d', way, entries, hensure, hne, hopens, hholds⟩ := perform_ensure h
  have hfree : ∀ inner, Named.get? file entries ≠ some (.folder inner) := fun inner => by
    rw [hholds.get?_eq]
    exact c.file?_ne_folder file inner
  obtain ⟨d'', hwrite, -, hopens'⟩ := hopens.write hne hfile hshort hfree text
  refine ⟨d'', way, entries, ?_, hne, hopens', hholds⟩
  rw [put, hensure]
  simp only [hwrite]

/-- Where that is not possible, nothing is kept that was not kept before. -/
lemma put_error (h : s.Keeps can d c) (hfile : Machine.IsFileName file)
    (hnot : ¬(can = true ∧ file.utf8ByteSize ≤ Machine.nameLimit)) (operation text : String) :
    ∃ reason operation' path d',
      s.put operation file text d = (.error (.file reason operation' path), d') ∧
        s.Keeps can d' c := by
  cases can with
  | false =>
    obtain ⟨reason, operation', path, d', hensure, hkeeps⟩ := perform_ensure_error h
    exact ⟨reason, operation', path, d', by rw [put, hensure], hkeeps⟩
  | true =>
    have hlong : Machine.nameLimit < file.utf8ByteSize :=
      Nat.lt_of_not_le fun hshort => hnot ⟨rfl, hshort⟩
    obtain ⟨d', way, entries, hensure, hne, hopens, hholds⟩ := perform_ensure h
    have hwrite := hopens.write_long hne hfile hlong text
    have hput : s.put operation file text d = (.error (.file Disk.Fault.nameTooLong.message
        operation (some (Disk.join s.folder file))), d') := by
      rw [put, hensure]
      simp only [hwrite]
    exact ⟨_, _, _, d', hput, .opened hne rfl hopens h.valid hholds⟩

end Put

/-- Whether a pipeline can be saved under a name, where the folder can be made or not. -/
def CanSave (can : Bool) (name : String) : Prop :=
  can = true ∧ (fileOf name).utf8ByteSize ≤ Machine.nameLimit

instance (can : Bool) (name : String) : Decidable (CanSave can name) :=
  inferInstanceAs (Decidable (_ ∧ _))

/-- A pipeline is saved. -/
theorem perform_save (h : s.Keeps can d c) {name : String} (hname : Admissible name)
    (hsave : CanSave can name) (p : Pipeline) :
    ∃ d', d.perform (s.save name p) = (.ok (), d') ∧ s.Keeps can d' (c.insert name p) := by
  obtain ⟨rfl, hshort⟩ := hsave
  obtain ⟨d', way, entries, hput, hne, hopens, hholds⟩ :=
    put_ok h (isFileName_fileOf hname.isName) hshort "save config" p.savedText
  exact ⟨d', (perform_save_eq s d hname.isName p).trans hput,
    .opened hne rfl hopens (h.valid.insert hname hshort p) (hholds.insert hname p)⟩

/-- A file operation failed, and nothing is kept that was not kept before. -/
theorem perform_save_error (h : s.Keeps can d c) {name : String} (hname : Admissible name)
    (hsave : ¬CanSave can name) (p : Pipeline) :
    ∃ reason operation path d', d.perform (s.save name p) =
      (.error (.file reason operation path), d') ∧ s.Keeps can d' c := by
  rw [perform_save_eq s d hname.isName]
  exact put_error h (isFileName_fileOf hname.isName) hsave "save config" p.savedText

/-- A saved pipeline is deleted. -/
theorem perform_delete (h : s.Keeps can d c) {name : String} (hname : Admissible name)
    {p : Pipeline} (hsaved : Named.get? name c.snapshots = some p) :
    ∃ d', d.perform (s.delete name) = (.ok (), d') ∧ s.Keeps can d' (c.erase name) := by
  have hfound := h.isOk_find_pathOf hname
  have hcontents := c.file?_fileOf hname
  rw [hsaved] at hfound hcontents
  cases h with
  | lacking => cases hsaved
  | @opened _ way entries hne hcan h hvalid hholds =>
    have hshort := hvalid.short name (by
      by_contra hmem
      rw [Named.get?_eq_none_iff.2 hmem] at hsaved
      cases hsaved)
    obtain ⟨d', hremove, -, hopens⟩ :=
      h.remove hne (isFileName_fileOf hname.isName) hshort ((hholds.get?_eq _).trans hcontents)
    have hremove' : d.remove (s.pathOf name) = .ok d' := hremove
    refine ⟨d', ?_, .opened hne hcan hopens (hvalid.erase name) (hholds.erase hname)⟩
    rw [perform_delete_eq s d hname.isName, hfound, hremove']
    rfl

theorem perform_delete_missing (h : s.Keeps can d c) {name : String} (hname : Admissible name)
    (hmissing : Named.get? name c.snapshots = none) :
    d.perform (s.delete name) = (.error (.notFound name), d) := by
  rw [perform_delete_eq s d hname.isName, h.isOk_find_pathOf hname, hmissing]
  rfl

/-- A generated pipeline is added to the history at the time of the machine. -/
theorem perform_record (h : s.Keeps can d c) (p : Pipeline) (yaml : String) :
    s.Keeps can (d.perform (s.record p yaml)).2 (c.record can d.clock p yaml) := by
  rw [perform_record_eq, perform_history h, Contents.record]
  cases c.history with
  | error e => exact h
  | ok entries =>
    simp only
    cases can with
    | false =>
      obtain ⟨reason, operation, path, d', hput, hkeeps⟩ := put_error h isFileName_historyFile
        (by simp) "write history" (Contents.logText d.clock p yaml entries)
      rw [hput]
      exact hkeeps
    | true =>
      obtain ⟨d', way, inside, hput, hne, hopens, hholds⟩ := put_ok h isFileName_historyFile
        (by decide) "write history" (Contents.logText d.clock p yaml entries)
      rw [hput]
      exact .opened hne rfl hopens ⟨h.valid.ordered, h.valid.admissible, h.valid.short⟩
        (hholds.setLog _)

end FolderStore

end Pipework
