import Pipework.Proofs.Disk.Files
import Pipework.Proofs.Json.Yields
import Pipework.Proofs.Pipeline.Reading
import Pipework.Proofs.Store.Separation
import Pipework.Proofs.Time.Instant

/-!
# The history of generated pipelines

The history is read from its file, changed and written again at every generated pipeline.  An entry
survives that any number of times (`Store.ofText_history`), because its text tells it completely:
the axes of a matrix keep their order, unlike in saved pipelines.  What the file tells is then
`Store.addEntry` folded over the pipelines (`keepsLog_later`), which is a bounded stack
(`history_later`).
-/

namespace Pipework

open Disk (Fault Host Machine)
open Store (Event)

/-! ## Entries and their text -/

namespace HistoryEntry

/-- An entry that its text can tell: it has a time that a clock can tell, and no more jobs than can
be counted. -/
structure Tellable (e : HistoryEntry) : Prop where
  timestamp : e.timestamp.IsValid
  jobCount : e.jobCount < UInt64.size

lemma rereads (depth : Nat) {e : HistoryEntry} (h : e.Tellable) : codec.Rereads (depth + 7) e := by
  refine Json.Codec.rereads_record (by decide) ?_
  refine .needed (Json.Codec.rereads_text _ ?_) (.needed (rereads_platform _ _)
    (.needed (Json.Codec.rereads_natural _ h.jobCount le_rfl)
    (.needed (Record.rereads _ _) (.nil _))))
  rw [Time.Instant.ofText_text h.timestamp]
  rfl

open Json.Codec (Yields leaves_field leaves_of_congr yields_natural yields_record yields_text)

lemma yields_timestamp : Yields timestampCodec.read Time.Instant.IsValid := by
  refine yields_text fun s t ht => ?_
  cases htext : Time.Instant.ofText s with
  | error fault =>
    rw [htext] at ht
    cases ht
  | ok t' =>
    rw [htext] at ht
    cases ht
    exact Time.Instant.isValid_of_ofText htext

/-- What is read is an entry that its text can tell. -/
lemma yields_tellable : Yields codec.read Tellable := by
  refine yields_record ⟨by decide, by decide⟩ ?_
  simp only [List.forall_mem_cons]
  refine ⟨.needed (leaves_field yields_timestamp _ fun t e ht he => ⟨ht, he.jobCount⟩),
    .needed (leaves_of_congr _ fun p e => ⟨fun h => ⟨h.1, h.2⟩, fun h => ⟨h.1, h.2⟩⟩),
    .needed (leaves_field (yields_natural _ _) _ fun n e hn he => ⟨he.timestamp, hn⟩),
    .needed (leaves_of_congr _ fun r e => ⟨fun h => ⟨h.1, h.2⟩, fun h => ⟨h.1, h.2⟩⟩), by simp⟩

end HistoryEntry

namespace Store

/-- What a text tells is a history that its text can tell. -/
lemma tellable_of_ofText {text : String} {entries : List HistoryEntry}
    (h : historyCodec.ofText text = .ok entries) : ∀ e ∈ entries, e.Tellable :=
  (Json.Codec.yields_list HistoryEntry.yields_tellable).ofText h

/-- The text of a history tells it. -/
theorem ofText_history {entries : List HistoryEntry} (h : ∀ e ∈ entries, e.Tellable) :
    historyCodec.ofText (historyCodec.encode entries).pretty = .ok entries := by
  have hread : historyCodec.Rereads 8 entries :=
    Json.Codec.rereads_list fun e he => HistoryEntry.rereads 0 (h e he)
  exact hread.ofText (by decide)

/-- Adding entries one after the other piles them up, and the oldest ones are dropped. -/
lemma foldl_addEntry (new : List HistoryEntry) {old : List HistoryEntry}
    (hold : old.length ≤ historyLimit) :
    new.foldl (fun entries e => addEntry e entries) old =
      (new.reverse ++ old).take historyLimit := by
  induction new generalizing old with
  | nil => simp [List.take_of_length_le hold]
  | cons e new ih =>
    have hcut : (addEntry e old).length ≤ historyLimit := by
      rw [addEntry, List.length_take]
      exact Nat.min_le_left _ _
    rw [List.foldl_cons, ih hcut, addEntry, List.take_append, List.take_take,
      Nat.min_eq_left (Nat.sub_le _ _), ← List.take_append, List.reverse_cons, List.append_assoc,
      List.singleton_append]

/-- A generated pipeline that is added to the history at some time. -/
structure Recording where
  time : Time.Instant
  pipeline : Pipeline
  yaml : String

namespace Recording

/-- The adding as what happens to a store. -/
def event (r : Recording) : Event := .record r.time r.pipeline r.yaml

/-- The entry that is added. -/
def entry (r : Recording) : HistoryEntry := .of r.time r.pipeline r.yaml

end Recording

end Store

/-! ## The file of the history -/

namespace FolderStore

open Store (Answer Recording addEntry historyCodec historyLimit)

variable {s : FolderStore} {d : Machine}

/-- Some entries are the history of a machine: the text of their file, unless there are none. -/
structure KeepsLog (s : FolderStore) (d : Machine) (entries : List HistoryEntry) : Prop where
  tellable : ∀ e ∈ entries, e.Tellable
  told : d.read s.historyPath = .ok (historyCodec.encode entries).pretty ∨
    entries = [] ∧ (d.find s.historyPath).isOk = false

variable {entries : List HistoryEntry}

lemma KeepsLog.perform_eq (h : s.KeepsLog d entries) : d.perform s.history = (.ok entries, d) := by
  rw [perform_history_eq]
  rcases h.told with hread | ⟨rfl, hnone⟩
  · have hfound : (d.find s.historyPath).isOk = true := by
      rw [Machine.read] at hread
      cases hfind : d.find s.historyPath with
      | error fault =>
        rw [hfind] at hread
        cases hread
      | ok t => rfl
    rw [hfound, if_pos rfl, hread]
    simp only [Store.ofText_history h.tellable]
    rfl
  · rw [hnone]
    rfl

lemma KeepsLog.setClock (h : s.KeepsLog d entries) (t : Time.Instant) :
    s.KeepsLog (d.setClock t) entries :=
  ⟨h.tellable, h.told⟩

lemma tellable_of {time : Time.Instant} {p : Pipeline} (htime : time.IsValid)
    (hcount : p.jobs.length < UInt64.size) (yaml : String) :
    (HistoryEntry.of time p yaml).Tellable :=
  ⟨htime, hcount⟩

lemma tellable_addEntry {new : HistoryEntry} (hnew : new.Tellable)
    (h : ∀ e ∈ entries, e.Tellable) : ∀ e ∈ addEntry new entries, e.Tellable :=
  fun e he => List.forall_mem_cons.2 ⟨hnew, h⟩ e (List.mem_of_mem_take he)

/-- Adding to the history keeps it in its file, unless a file operation fails. -/
lemma KeepsLog.record (h : s.KeepsLog d entries) {p : Pipeline} {yaml : String}
    (hclock : d.clock.IsValid) (hcount : p.jobs.length < UInt64.size)
    (hfile : (Answer.of (fun _ => .done) (d.perform (s.record p yaml)).1).isFileFault = false) :
    ∃ d', d.perform (s.record p yaml) = (.ok (), d') ∧
      s.KeepsLog d' (addEntry (.of d.clock p yaml) entries) := by
  have hrecord := perform_record_eq s d p yaml
  have hwrites := writes_put s "write history" historyFile (Contents.logText d.clock p yaml entries) d
  rw [h.perform_eq] at hrecord
  simp only at hrecord
  rw [hrecord] at hfile ⊢
  cases hput : s.put "write history" historyFile (Contents.logText d.clock p yaml entries) d with
  | mk result d' =>
    rw [hput] at hwrites hfile
    cases hwrites with
    | failed => cases hfile
    | done _ htext _ =>
      exact ⟨d', rfl, tellable_addEntry (tellable_of hclock hcount yaml) h.tellable,
        .inl htext.read_eq⟩

/-! ### Any file of the history -/

/-- What the history tells can be told again. -/
lemma tellable_of_history (h : (d.perform s.history).1 = .ok entries) :
    ∀ e ∈ entries, e.Tellable := by
  rw [perform_history_eq] at h
  simp only at h
  split at h
  · split at h
    case h_1 text hread =>
      cases htext : historyCodec.ofText text with
      | error e =>
        rw [htext] at h
        cases h
      | ok entries' =>
        rw [htext] at h
        cases h
        exact Store.tellable_of_ofText htext
    case h_2 => cases h
  · cases h
    simp

/-- Whether the folder of a store can be made and the file of the history be written in it. -/
def canLog (s : FolderStore) (d : Machine) : Bool :=
  (d.perform s.ensure).1.isOk && ((d.perform s.ensure).2.write s.historyPath "").isOk

/-- What adding an entry to the history does: either the entry comes in front of the old ones in the
file of the history, or the history cannot be read or written, and all files stay as they are. -/
inductive Logs (s : FolderStore) (e : HistoryEntry) (d d' : Machine) : Prop where
  | added {old : List HistoryEntry} {way : List String}
    (hold : (d.perform s.history).1 = .ok old) (hcan : s.canLog d = true)
    (hway : d'.wayTo s.historyPath = some way) (hsame : Machine.SameFilesBut way d d')
    (hnew : (d'.perform s.history).1 = .ok (addEntry e old))
  | unreadable {reason : Failure} (hold : (d.perform s.history).1 = .error reason)
    (hsame : d' = d)
  | unwritable (hcan : s.canLog d = false) (hsame : Machine.SameFiles d d')

/-- On any machine a generated pipeline is added to the history, or the files stay as they are. -/
theorem logs_record (hclock : d.clock.IsValid) {p : Pipeline} (hcount : p.jobs.length < UInt64.size)
    (yaml : String) :
    Machine.Extends d (d.perform (s.record p yaml)).2 ∧
      s.Logs (.of d.clock p yaml) d (d.perform (s.record p yaml)).2 := by
  rw [perform_record_eq]
  cases hold : (d.perform s.history).1 with
  | error e => exact ⟨.refl d, .unreadable hold rfl⟩
  | ok old =>
    have hwrites := writes_put s "write history" historyFile (Contents.logText d.clock p yaml old) d
    have hcan : s.canLog d = _ :=
      (isOk_put s "write history" historyFile (Contents.logText d.clock p yaml old) "" d).symm
    cases hput : s.put "write history" historyFile (Contents.logText d.clock p yaml old) d with
    | mk result d' =>
      rw [hput] at hwrites hcan
      simp only [hput]
      cases hwrites with
      | failed hext hsame => exact ⟨hext, .unwritable hcan hsame⟩
      | done hext htext hsame =>
        have hkeeps : s.KeepsLog d' (addEntry (.of d.clock p yaml) old) :=
          ⟨tellable_addEntry (tellable_of hclock hcount yaml) (tellable_of_history hold),
            .inl htext.read_eq⟩
        exact ⟨hext, .added hold hcan htext.wayTo_eq hsame (congrArg Prod.fst hkeeps.perform_eq)⟩

/-- The path of the history leads to nothing that was made in between: either it led to something
before, or there is no folder at its end now and the path of the store has no two dots, with which
it could lead on through a new folder. -/
def SamePlace (s : FolderStore) (d d' : Machine) : Prop :=
  (d.find s.historyPath).isOk = true ∨
    ".." ∉ Disk.names s.folder ∧ d'.isFolder s.historyPath = false

/-- The history does not change where folders are made and other files are written. -/
theorem history_kept {d' : Machine} (hext : Machine.Extends d d')
    (hsame : ∀ way, d'.wayTo s.historyPath = some way →
      d'.root.fileAt way = d.root.fileAt way)
    (hplace : s.SamePlace d d') : (d'.perform s.history).1 = (d.perform s.history).1 := by
  have hsame' : ∀ way, d'.folderAt s.folder = some way →
      d'.root.fileAt (way ++ [historyFile]) = d.root.fileAt (way ++ [historyFile]) := by
    intro way hway
    refine hsame _ ?_
    rw [Machine.wayTo, historyPath,
      Machine.locate_of_folderAt isFileName_historyFile (by decide) hway]
    rfl
  rw [perform_history_eq, perform_history_eq]
  cases hfound : (d.find s.historyPath).isOk with
  | true =>
    obtain ⟨hfound', hread⟩ :=
      Machine.read_join_kept isFileName_historyFile (by decide) hext hsame' hfound
    rw [← historyPath] at hfound' hread
    rw [hfound', hread]
  | false =>
    rw [SamePlace, hfound] at hplace
    obtain ⟨hup, hfree⟩ := hplace.resolve_left Bool.false_ne_true
    have hmissing := Machine.find_join_missing isFileName_historyFile (by decide) hext hsame' hfound
      hup hfree
    rw [← historyPath] at hmissing
    rw [hmissing]
    rfl

/-- Whether a path leads into the folder of a store. -/
def Contains (s : FolderStore) (d : Machine) (path : String) : Prop :=
  ∃ above way, d.folderAt s.folder = some above ∧ d.wayTo path = some way ∧ above <+: way

/-- The file of the history is in the folder of the store. -/
lemma contains_of_wayTo {way : List String} {path : String}
    (hlog : d.wayTo s.historyPath = some way) (hpath : d.wayTo path = some way) :
    s.Contains d path := by
  obtain ⟨above, habove, rfl⟩ := Machine.folderAt_of_wayTo_join isFileName_historyFile hlog
  exact ⟨above, _, habove, hpath, List.prefix_append _ _⟩

/-- A file that is not in the folder of the store stays as it is. -/
lemma Logs.hasText {e : HistoryEntry} {d' : Machine} {path text : String} {way : List String}
    (h : s.Logs e d d') (hext : Machine.Extends d d') (htext : d.HasText path way text)
    (houtside : ¬s.Contains d' path) : d'.HasText path way text := by
  refine htext.mono hext ?_
  cases h with
  | added _ _ hlog hsame _ =>
    refine hsame way ?_
    rintro rfl
    exact houtside (contains_of_wayTo hlog (hext.wayTo_eq htext.wayTo_eq))
  | unreadable _ hsame => rw [hsame]
  | unwritable _ hsame => exact hsame way

/-! ### The bounded stack -/

/-- What a store answers when pipelines are added to its history, one after the other. -/
def recordAnswers (s : FolderStore) (d : Machine) : List Recording → List Answer
  | [] => []
  | r :: rest =>
    .of (fun _ => .done) ((d.setClock r.time).perform (s.record r.pipeline r.yaml)).1 ::
      s.recordAnswers (s.react d r.event) rest

/-- Adding some pipelines, each at its time, keeps the history in its file. -/
lemma KeepsLog.later (h : s.KeepsLog d entries) {calls : List Recording}
    (htimes : ∀ call ∈ calls, call.time.IsValid)
    (hcounts : ∀ call ∈ calls, call.pipeline.jobs.length < UInt64.size)
    (hfiles : ∀ answer ∈ s.recordAnswers d calls, answer.isFileFault = false) :
    (∀ answer ∈ s.recordAnswers d calls, answer = .done) ∧
      s.KeepsLog (s.later d (calls.map Recording.event))
        ((calls.map Recording.entry).foldl (fun entries e => addEntry e entries) entries) := by
  induction calls generalizing d entries with
  | nil => exact ⟨by simp [recordAnswers], h⟩
  | cons call calls ih =>
    rw [List.forall_mem_cons] at htimes hcounts
    rw [recordAnswers, List.forall_mem_cons] at hfiles
    obtain ⟨d', hrecord, hkeeps⟩ := (h.setClock call.time).record htimes.1 hcounts.1 hfiles.1
    have hreact : s.react d call.event = d' := congrArg Prod.snd hrecord
    rw [hreact] at hfiles
    obtain ⟨hdone, hlater⟩ := ih hkeeps htimes.2 hcounts.2 hfiles.2
    refine ⟨?_, ?_⟩
    · rw [recordAnswers, List.forall_mem_cons, hreact, hrecord]
      exact ⟨rfl, hdone⟩
    · rw [List.map_cons, later, List.foldl_cons, hreact]
      exact hlater

/-- Where the folder of a store can be made, no file operation fails when a pipeline is added. -/
lemma Keeps.record_fine {c : Contents} (h : s.Keeps true d c) (p : Pipeline) (yaml : String) :
    (Answer.of (fun _ => .done) (d.perform (s.record p yaml)).1).isFileFault = false := by
  rw [perform_record_eq, perform_history h]
  cases hentries : c.history with
  | error e =>
    rw [Contents.history] at hentries
    cases hlog : c.log with
    | none =>
      rw [hlog] at hentries
      cases hentries
    | some text =>
      rw [hlog] at hentries
      simp only at hentries
      cases htext : historyCodec.ofText text with
      | ok entries =>
        rw [htext] at hentries
        cases hentries
      | error reason =>
        rw [htext] at hentries
        obtain rfl := Except.error.inj hentries
        rfl
  | ok entries =>
    obtain ⟨d', way, inside, hput, -⟩ := put_ok h isFileName_historyFile (by decide)
      "write history" (Contents.logText d.clock p yaml entries)
    simp only [hput]
    rfl

lemma Keeps.recordAnswers_fine {c : Contents} (h : s.Keeps true d c) (calls : List Recording) :
    ∀ answer ∈ s.recordAnswers d calls, answer.isFileFault = false := by
  induction calls generalizing d c with
  | nil => simp [recordAnswers]
  | cons call calls ih =>
    rw [recordAnswers, List.forall_mem_cons]
    exact ⟨(h.setClock call.time).record_fine call.pipeline call.yaml, ih (keeps_react h trivial)⟩

/-- The history is a bounded stack.  If it has no file yet, on a machine without links, and
pipelines are added to it, each at its time, then as long as no file operation fails all of them are
added, and the history is told from the last one backwards, without those before the last
twenty.  An entry has the platform, the number of jobs and the record of its pipeline, with the axes
of matrices in their order. -/
theorem history_later (s : FolderStore) (d : Machine) (calls : List Recording)
    (hnone : (d.find s.historyPath).isOk = false)
    (htimes : ∀ call ∈ calls, call.time.IsValid)
    (hcounts : ∀ call ∈ calls, call.pipeline.jobs.length < UInt64.size)
    (hfiles : ∀ answer ∈ s.recordAnswers d calls, answer.isFileFault = false) :
    (∀ answer ∈ s.recordAnswers d calls, answer = .done) ∧
      ∃ entries,
        ((s.later d (calls.map Recording.event)).perform s.history).1 = .ok entries ∧
        entries.length = min calls.length 20 ∧
        ∀ i (hi : i < entries.length), ∃ call, calls[calls.length - 1 - i]? = some call ∧
          entries[i].timestamp = call.time ∧
          entries[i].platform = call.pipeline.platform ∧
          entries[i].jobCount = call.pipeline.jobs.length ∧
          entries[i].record = { pipeline := call.pipeline, yamlOutput := some call.yaml } := by
  have hstart : s.KeepsLog d [] := ⟨by simp, .inr ⟨rfl, hnone⟩⟩
  obtain ⟨hdone, hkeeps⟩ := hstart.later htimes hcounts hfiles
  rw [Store.foldl_addEntry _ (Nat.zero_le _), List.append_nil] at hkeeps
  have hlength : ((calls.map Recording.entry).reverse.take historyLimit).length =
      min calls.length 20 := by
    rw [List.length_take, List.length_reverse, List.length_map, Nat.min_comm]
    rfl
  refine ⟨hdone, _, congrArg Prod.fst hkeeps.perform_eq, hlength, fun i hi => ?_⟩
  have hbound : i < calls.length := by omega
  have hplace : calls.length - 1 - i < calls.length := by omega
  have hentry : ((calls.map Recording.entry).reverse.take historyLimit)[i] =
      calls[calls.length - 1 - i].entry := by
    simp
  rw [hentry]
  exact ⟨_, List.getElem?_eq_getElem hplace, rfl, rfl, rfl, rfl⟩

/-- More pipelines than the history keeps: the first one is added in a leap second, the others have
a matrix. -/
theorem history_later_leapSecond :
    let s : FolderStore := ⟨"store"⟩
    let calls : List Recording :=
      ⟨⟨59, 1500000000⟩, {}, ""⟩ :: List.replicate 24 ⟨⟨60, 0⟩, .crossBuild, "on: push"⟩
    (({} : Machine).find s.historyPath).isOk = false ∧ (∀ call ∈ calls, call.time.IsValid) ∧
      (∀ call ∈ calls, call.pipeline.jobs.length < UInt64.size) ∧
      (∀ answer ∈ s.recordAnswers {} calls, answer.isFileFault = false) ∧
      (∀ answer ∈ s.recordAnswers {} calls, answer = .done) ∧
      ∃ entries,
        ((s.later {} (calls.map Recording.event)).perform s.history).1 = .ok entries ∧
        entries.length = min calls.length 20 ∧
        ∀ i (hi : i < entries.length), ∃ call, calls[calls.length - 1 - i]? = some call ∧
          entries[i].timestamp = call.time ∧
          entries[i].platform = call.pipeline.platform ∧
          entries[i].jobCount = call.pipeline.jobs.length ∧
          entries[i].record = { pipeline := call.pipeline, yamlOutput := some call.yaml } := by
  intro s calls
  have hnone : (({} : Machine).find s.historyPath).isOk = false := by decide
  have htimes : ∀ call ∈ calls, call.time.IsValid := by decide
  have hcounts : ∀ call ∈ calls, call.pipeline.jobs.length < UInt64.size := by decide
  have hstart : s.Keeps true {} {} := .lacking Machine.lacks_store (by decide)
  have hfiles := hstart.recordAnswers_fine calls
  exact ⟨hnone, htimes, hcounts, hfiles, history_later s {} calls hnone htimes hcounts hfiles⟩

end FolderStore

end Pipework
