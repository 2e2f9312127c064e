import Pipework.Pipeline.Record
import Pipework.Proofs.Store.Names

/-!
# What a folder keeps

`Contents` is what a folder of saved pipelines keeps, without its files: pipelines under their names
and the text of the history.  `Contents.file?` says which text stands in which file, and
`Contents.Holds` that the entries of a folder are these files and no others.
-/

namespace Pipework

open Disk (Machine Tree)

open FolderStore (Admissible fileOf historyFile nameOf? nameOf?_eq_some_iff)

/-- What a folder of saved pipelines keeps. -/
structure Contents where
  /-- The saved pipelines under their names. -/
  snapshots : List (String × Pipeline) := []
  /-- The text of the history, if there is one. -/
  log : Option String := none

/-- The text in which a pipeline is saved. -/
def Pipeline.savedText (p : Pipeline) : String := ({ pipeline := p } : Record).toJsonText

namespace Contents

/-- What is in a file. -/
def file? (c : Contents) (file : String) : Option Tree :=
  if file = historyFile then c.log.map .text
  else (nameOf? file).bind fun name =>
    (Named.get? name c.snapshots).map fun p => .text p.savedText

/-- The contents with a pipeline saved under a name. -/
def insert (name : String) (p : Pipeline) (c : Contents) : Contents :=
  { c with snapshots := Named.insert name p c.snapshots }

/-- The contents without the pipeline of a name. -/
def erase (name : String) (c : Contents) : Contents :=
  { c with snapshots := Named.erase name c.snapshots }

/-- The contents with another history. -/
def setLog (text : String) (c : Contents) : Contents := { c with log := some text }

/-- The history that the text tells. -/
def history (c : Contents) : Except Failure (List HistoryEntry) :=
  match c.log with
  | none => .ok []
  | some text => (Store.historyCodec.ofText text).mapError fun e => .unreadable e.message

/-- The text of a history with a generated pipeline added to it. -/
def logText (time : Time.Instant) (p : Pipeline) (yaml : String) (entries : List HistoryEntry) :
    String :=
  (Store.historyCodec.encode (Store.addEntry (.of time p yaml) entries)).pretty

/-- The contents after a generated pipeline was added to the history, if it can be. -/
def record (can : Bool) (time : Time.Instant) (p : Pipeline) (yaml : String) (c : Contents) :
    Contents :=
  match c.history with
  | .ok entries => if can then c.setLog (logText time p yaml entries) else c
  | .error _ => c

/-- Entries of a folder that are files with some contents. -/
structure Holds (c : Contents) (entries : List (String × Tree)) : Prop where
  ordered : Named.Ordered entries
  get?_eq : ∀ file, Named.get? file entries = c.file? file

/-- Pipelines under names that can be names of files, in the order of their names. -/
structure Valid (c : Contents) : Prop where
  ordered : Named.Ordered c.snapshots
  admissible : ∀ name ∈ c.snapshots.map (·.1), Admissible name
  short : ∀ name ∈ c.snapshots.map (·.1), (fileOf name).utf8ByteSize ≤ Machine.nameLimit

variable {c : Contents} {entries : List (String × Tree)} {name : String}

lemma valid_empty : Valid {} := ⟨Named.ordered_nil, by simp, by simp⟩

/-- Files with long names are kept by no folder. -/
lemma Valid.file?_eq_none (h : c.Valid) {file : String}
    (hlong : Machine.nameLimit < file.utf8ByteSize) : c.file? file = none := by
  unfold file?
  split
  case isTrue heq =>
    rw [heq] at hlong
    exact absurd hlong (by decide)
  case isFalse =>
    refine Option.bind_eq_none_iff.2 fun name hname => ?_
    rw [Option.map_eq_none_iff, Named.get?_eq_none_iff]
    intro hmem
    rw [(nameOf?_eq_some_iff.1 hname).2.2] at hlong
    exact absurd (h.short name hmem) (Nat.not_le.2 hlong)

lemma holds_nil : Holds {} [] :=
  ⟨Named.ordered_nil, fun file => by simp [Named.get?, file?]⟩

lemma file?_history (c : Contents) : c.file? historyFile = c.log.map .text := by simp [file?]

lemma file?_fileOf (c : Contents) (h : Admissible name) :
    c.file? (fileOf name) = (Named.get? name c.snapshots).map fun p => .text p.savedText := by
  have hname : nameOf? (fileOf name) = some name :=
    nameOf?_eq_some_iff.2 ⟨FolderStore.ne_empty_of_isName h.isName, h.ne_history, rfl⟩
  have hother : fileOf name ≠ historyFile := by
    rw [← FolderStore.fileOf_history, FolderStore.fileOf_injective.ne_iff]
    exact h.ne_history
  rw [file?, if_neg hother, hname]
  rfl

/-- Files are no folders. -/
lemma file?_ne_folder (c : Contents) (file : String) (inner : List (String × Tree)) :
    c.file? file ≠ some (.folder inner) := by
  unfold file?
  split
  · cases c.log <;> simp
  · cases nameOf? file with
    | none => simp
    | some name => cases h : Named.get? name c.snapshots <;> simp [h]

/-- A file is about one name. -/
lemma file?_congr {c' : Contents} {file : String} (hlog : c'.log = c.log)
    (h : ∀ other ≠ name, Named.get? other c'.snapshots = Named.get? other c.snapshots)
    (hne : fileOf name ≠ file) : c'.file? file = c.file? file := by
  unfold file?
  split
  · rw [hlog]
  · refine Option.bind_congr fun other hother => ?_
    have hother : other ≠ name := by
      rintro rfl
      exact hne (nameOf?_eq_some_iff.1 hother).2.2.symm
    rw [h other hother]

lemma file?_insert (h : Admissible name) (p : Pipeline) (file : String) :
    (c.insert name p).file? file =
      if fileOf name = file then some (.text p.savedText) else c.file? file := by
  split
  case isTrue heq =>
    rw [← heq, file?_fileOf _ h]
    simp [insert]
  case isFalse hne =>
    exact file?_congr rfl (fun other hother => by simp [insert, Ne.symm hother]) hne

lemma file?_erase (h : Admissible name) (file : String) :
    (c.erase name).file? file = if fileOf name = file then none else c.file? file := by
  split
  case isTrue heq =>
    rw [← heq, file?_fileOf _ h]
    simp [erase]
  case isFalse hne =>
    exact file?_congr rfl (fun other hother => by simp [erase, Ne.symm hother]) hne

lemma file?_setLog (text file : String) :
    (c.setLog text).file? file =
      if historyFile = file then some (.text text) else c.file? file := by
  by_cases heq : historyFile = file
  · simp [file?, setLog, ← heq]
  · simp [file?, setLog, heq, Ne.symm heq]

lemma Holds.insert (h : c.Holds entries) (hname : Admissible name) (p : Pipeline) :
    (c.insert name p).Holds (Named.insert (fileOf name) (.text p.savedText) entries) :=
  ⟨h.ordered.insert _ _, fun file => by rw [Named.get?_insert, file?_insert hname, h.get?_eq]⟩

lemma Holds.erase (h : c.Holds entries) (hname : Admissible name) :
    (c.erase name).Holds (Named.erase (fileOf name) entries) :=
  ⟨h.ordered.erase _, fun file => by rw [Named.get?_erase, file?_erase hname, h.get?_eq]⟩

lemma Holds.setLog (h : c.Holds entries) (text : String) :
    (c.setLog text).Holds (Named.insert historyFile (.text text) entries) :=
  ⟨h.ordered.insert _ _, fun file => by rw [Named.get?_insert, file?_setLog, h.get?_eq]⟩

lemma Valid.insert (h : c.Valid) (hname : Admissible name)
    (hshort : (fileOf name).utf8ByteSize ≤ Machine.nameLimit) (p : Pipeline) :
    (c.insert name p).Valid := by
  refine ⟨h.ordered.insert _ _, fun other hother => ?_, fun other hother => ?_⟩
  · rcases Named.mem_names_insert.1 hother with rfl | hother
    · exact hname
    · exact h.admissible other hother
  · rcases Named.mem_names_insert.1 hother with rfl | hother
    · exact hshort
    · exact h.short other hother

lemma Valid.erase (h : c.Valid) (name : String) : (c.erase name).Valid := by
  have hsub : ∀ other ∈ (c.erase name).snapshots.map (·.1), other ∈ c.snapshots.map (·.1) :=
    fun other hother => (List.filter_sublist.map _).mem hother
  exact ⟨h.ordered.erase _, fun other hother => h.admissible other (hsub other hother),
    fun other hother => h.short other (hsub other hother)⟩

end Contents

end Pipework
