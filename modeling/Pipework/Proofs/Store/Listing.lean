import Pipework.Proofs.Store.Perform

/-!
# Listed names

What is listed on any machine, whoever put the files there: the names that the files of the folder
tell (`mem_perform_list_iff`).  A listed name can be loaded and deleted if it is one that a pipeline
can be saved under, and not otherwise: `addressable_iff`.
-/

namespace Pipework

open Disk (Machine Tree)

namespace FolderStore

variable {s : FolderStore} {d : Machine} {names : List String} {name : String}

/-- What is listed are the names of the files in the folder, but for the history. -/
lemma mem_perform_list_iff (hlist : (d.perform s.list).1 = .ok names) :
    name ∈ names ↔ name ≠ "" ∧ name ≠ "history" ∧ ∃ entries,
      d.find s.folder = .ok (.folder entries) ∧ fileOf name ∈ entries.map (·.1) := by
  rw [perform_list_eq] at hlist
  simp only [Machine.list] at hlist
  cases hfind : d.find s.folder with
  | error fault =>
    rw [hfind] at hlist
    obtain rfl : [] = names := Except.ok.inj hlist
    simp
  | ok t =>
    rw [hfind] at hlist
    cases t with
    | text => cases hlist
    | bytes => cases hlist
    | folder entries =>
      obtain rfl := Except.ok.inj hlist
      rw [List.mem_mergeSort, List.mem_filterMap]
      constructor
      · rintro ⟨file, hfile, hname⟩
        obtain ⟨hne, hother, rfl⟩ := nameOf?_eq_some_iff.1 hname
        exact ⟨hne, hother, entries, rfl, hfile⟩
      · rintro ⟨hne, hother, entries', hentries, hfile⟩
        cases hentries
        exact ⟨fileOf name, hfile, nameOf?_eq_some_iff.2 ⟨hne, hother, rfl⟩⟩

/-- Neither loading nor deleting says that there is nothing under a name, or that there cannot be.
-/
structure Addressable (s : FolderStore) (d : Machine) (name : String) : Prop where
  load : ∀ other, (d.perform (s.load name)).1 ≠ .error (.invalidName other) ∧
    (d.perform (s.load name)).1 ≠ .error (.notFound other)
  delete : ∀ other, (d.perform (s.delete name)).1 ≠ .error (.invalidName other) ∧
    (d.perform (s.delete name)).1 ≠ .error (.notFound other)

/-- For a name that is not refused it matters whether its file is there. -/
lemma addressable_iff_isOk_find (hname : Store.isName name = true) :
    s.Addressable d name ↔ (d.find (s.pathOf name)).isOk = true := by
  constructor
  · intro h
    by_contra hmissing
    refine (h.load name).2 ?_
    rw [perform_load_eq s d hname, if_neg hmissing]
  · intro hfound
    refine ⟨fun other => ?_, fun other => ?_⟩
    · rw [perform_load_eq s d hname, if_pos hfound]
      cases d.read (s.pathOf name) with
      | error fault => simp
      | ok text =>
        cases hrecord : Record.ofJsonText text <;>
          simp [hrecord, Except.map, Except.mapError, RecordError.failure]
    · rw [perform_delete_eq s d hname, if_pos hfound]
      cases d.remove (s.pathOf name) <;> simp

/-- The file of a listed name is there, unless its name is too long to be looked for. -/
lemma isOk_find_of_listed (hname : Store.isName name = true) {entries : List (String × Tree)}
    (hfolder : d.find s.folder = .ok (.folder entries))
    (hfile : fileOf name ∈ entries.map (·.1)) :
    (d.find (s.pathOf name)).isOk = true ↔
      (fileOf name).utf8ByteSize ≤ Machine.nameLimit := by
  have hne : s.folder ≠ "" := by
    intro hempty
    rw [hempty] at hfolder
    cases hfolder
  obtain ⟨way, hway, hget⟩ := (Machine.find_eq_folder_iff hne).1 hfolder
  have hopens : d.Opens s.folder way entries := ⟨hway, hget⟩
  have hfileName := isFileName_fileOf hname
  by_cases hlong : Machine.nameLimit < (fileOf name).utf8ByteSize
  · have hfind : d.find (s.pathOf name) = .error .nameTooLong :=
      hopens.find_join_long hne hfileName hlong
    simp [hfind, Except.isOk, Except.toBool, hlong]
  · obtain ⟨t, ht⟩ := Option.ne_none_iff_exists'.1 (mt Named.get?_eq_none_iff.1 (not_not.2 hfile))
    have hfind : d.find (s.pathOf name) = .ok t := by
      have hjoin := hopens.find_join hne hfileName (Nat.not_lt.1 hlong)
      rw [ht] at hjoin
      exact hjoin
    simp [hfind, Except.isOk, Except.toBool, Nat.not_lt.1 hlong]

/-- Whatever files and folders are in the folder, a listed name can be loaded and deleted if and
only if it is one that a pipeline can be saved under, and its file has a name that a file can
have.  Other names are listed all the same, but are refused when they are to be loaded or
deleted.  There are no links on the machine: the name of one that leads nowhere would be listed as
well. -/
theorem addressable_iff (s : FolderStore) (d : Machine) (names : List String) (name : String)
    (hlist : (d.perform s.list).1 = .ok names) (hmem : name ∈ names) :
    (s.Addressable d name ↔
      Store.isName name = true ∧ (fileOf name).utf8ByteSize ≤ Machine.nameLimit) ∧
    (¬Store.isName name = true →
      d.perform (s.load name) = (.error (.invalidName name), d) ∧
        d.perform (s.delete name) = (.error (.invalidName name), d)) := by
  obtain ⟨-, -, entries, hfolder, hfile⟩ := (mem_perform_list_iff hlist).1 hmem
  refine ⟨?_, fun hname => ⟨perform_load_invalid d hname, perform_delete_invalid d hname⟩⟩
  by_cases hname : Store.isName name = true
  · rw [addressable_iff_isOk_find hname, isOk_find_of_listed hname hfolder hfile]
    simp [hname]
  · refine iff_of_false (fun h => (h.load name).1 ?_) fun h => hname h.1
    rw [perform_load_invalid d hname]

/-- A folder with a file that was not saved there. -/
theorem addressable_iff_notes :
    let s : FolderStore := ⟨"store"⟩
    let d : Machine := { root := .folder [("store", .folder
      [("my notes.json", .text "\x7b\x7d"), ("web.json", .text "\x7b\x7d")])] }
    ∃ names, (d.perform s.list).1 = .ok names ∧ "my notes" ∈ names ∧ "web" ∈ names ∧
      (s.Addressable d "web" ↔
        Store.isName "web" = true ∧ (fileOf "web").utf8ByteSize ≤ Machine.nameLimit) ∧
      s.Addressable d "web" ∧ ¬s.Addressable d "my notes" ∧
      d.perform (s.load "my notes") = (.error (.invalidName "my notes"), d) ∧
      d.perform (s.delete "my notes") = (.error (.invalidName "my notes"), d) := by
  intro s d
  have hfolder : d.find s.folder = .ok (.folder
      [("my notes.json", .text "\x7b\x7d"), ("web.json", .text "\x7b\x7d")]) := by
    have hget : d.root.get? ["store"] = some (.folder
        [("my notes.json", .text "\x7b\x7d"), ("web.json", .text "\x7b\x7d")]) := by
      simp [d, Tree.get?, Named.get?]
    exact (Machine.find_eq_folder_iff (by decide)).2 ⟨["store"], by decide, hget⟩
  obtain ⟨names, hlist⟩ : ∃ names, (d.perform s.list).1 = .ok names := by
    rw [perform_list_eq, Machine.list, hfolder]
    exact ⟨_, rfl⟩
  have hnotes : "my notes" ∈ names :=
    (mem_perform_list_iff hlist).2 ⟨by decide, by decide, _, hfolder, by decide⟩
  have hweb : "web" ∈ names :=
    (mem_perform_list_iff hlist).2 ⟨by decide, by decide, _, hfolder, by decide⟩
  obtain ⟨hiff, -⟩ := addressable_iff s d names "web" hlist hweb
  obtain ⟨hiff', hrefused⟩ := addressable_iff s d names "my notes" hlist hnotes
  obtain ⟨hload, hdelete⟩ := hrefused (by decide)
  have hwebAddressable : s.Addressable d "web" := hiff.2 (by decide)
  have hnotesRefused : ¬s.Addressable d "my notes" := fun h => absurd (hiff'.1 h).1 (by decide)
  exact ⟨names, hlist, hnotes, hweb, hiff, hwebAddressable, hnotesRefused, hload, hdelete⟩

end FolderStore

end Pipework
