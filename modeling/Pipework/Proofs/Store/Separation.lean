import Pipework.Proofs.Store.Calls

/-!
# Saved pipelines and the history

Saved pipelines and the history of generated ones share a folder.  Unless a pipeline is saved or
deleted under the name of the history, they do not touch each other: `saved_apart_from_history`.
What is kept of either is a function of the events that are about it
(`Contents.snapshots_foldl_react`, `Contents.log_foldl_react`), and `keeps_later` carries that over
to machines.
-/

namespace Pipework

open Disk (Fault Host Machine)
open Store (Call Answer lastSaved)
open FolderStore (Admissible CanSave)

namespace Store

/-- What happens to a store: a call, or a pipeline is generated at some time. -/
inductive Event where
  | call (call : Call)
  | record (time : Time.Instant) (p : Pipeline) (yaml : String)

namespace Event

/-- Whether an event is about the history. -/
def isRecord : Event → Bool
  | record .. => true
  | call _ => false

/-- Whether an event saves or deletes a pipeline. -/
def isChange : Event → Bool
  | call (.save ..) => true
  | call (.delete _) => true
  | _ => false

/-- The call that an event is. -/
def call? : Event → Option Call
  | call c => some c
  | record .. => none

/-- Whether an event leaves the file of the history to the history. -/
def SparesHistory : Event → Prop
  | call (.save name _) => name ≠ "history"
  | call (.delete name) => name ≠ "history"
  | _ => True

end Event

end Store

open Store (Event)

/-! ## What events do to the contents -/

/-- Folding over the events that matter to a view of the state. -/
lemma view_foldl_filter {σ ε β : Type} (view : σ → β) {step : σ → ε → σ} {keep : ε → Bool}
    (hcongr : ∀ s s' e, view s = view s' → view (step s e) = view (step s' e))
    (hskip : ∀ s e, keep e = false → view (step s e) = view s) (events : List ε) {s s' : σ}
    (h : view s = view s') :
    view (events.foldl step s) = view ((events.filter keep).foldl step s') := by
  induction events generalizing s s' with
  | nil => exact h
  | cons e events ih =>
    cases hkeep : keep e with
    | true =>
      rw [List.filter_cons_of_pos hkeep]
      exact ih (hcongr s s' e h)
    | false =>
      rw [List.filter_cons_of_neg (by simp [hkeep])]
      exact ih ((hskip s e hkeep).trans h)

namespace Contents

instance (can : Bool) (name : String) : Decidable (CanSave can name) :=
  inferInstanceAs (Decidable (_ ∧ _))

/-- The contents after an event, where the folder can be made or not. -/
def react (can : Bool) (c : Contents) : Event → Contents
  | .call (.save name p) => if Admissible name ∧ CanSave can name then c.insert name p else c
  | .call (.delete name) => c.erase name
  | .call (.load _) => c
  | .call .list => c
  | .record time p yaml => c.record can time p yaml

variable {can : Bool} {c c' : Contents}

lemma erase_eq_self {name : String} (h : Named.get? name c.snapshots = none) :
    c.erase name = c := by
  rw [Named.get?_eq_none_iff] at h
  have hsame : Named.erase name c.snapshots = c.snapshots := by
    refine List.filter_eq_self.2 fun entry hentry => decide_eq_true ?_
    rintro rfl
    exact h (List.mem_map_of_mem hentry)
  rw [erase, hsame]

lemma history_congr (h : c.log = c'.log) : c.history = c'.history := by
  rw [history, history, h]

lemma snapshots_record (time : Time.Instant) (p : Pipeline) (yaml : String) :
    (c.record can time p yaml).snapshots = c.snapshots := by
  unfold record
  split
  · split <;> rfl
  · rfl

/-- The saved pipelines depend on the events that save and delete. -/
lemma snapshots_foldl_react (can : Bool) (events : List Event) :
    (events.foldl (react can) {}).snapshots =
      ((events.filter Event.isChange).foldl (react can) {}).snapshots := by
  refine view_foldl_filter snapshots (fun c c' e h => ?_) (fun c e hskip => ?_) events rfl
  · rcases e with ⟨⟨name, p⟩ | name | - | name⟩ | ⟨time, p, yaml⟩
    · simp only [react]
      split <;> simp [insert, h]
    · exact h
    · exact h
    · simp only [react, erase, h]
    · simp only [react, snapshots_record, h]
  · rcases e with ⟨⟨name, p⟩ | name | - | name⟩ | ⟨time, p, yaml⟩
    · cases hskip
    · rfl
    · rfl
    · cases hskip
    · exact snapshots_record time p yaml

/-- The history depends on the events that are about it. -/
lemma log_foldl_react (can : Bool) (events : List Event) :
    (events.foldl (react can) {}).log =
      ((events.filter Event.isRecord).foldl (react can) {}).log := by
  refine view_foldl_filter log (fun c c' e h => ?_) (fun c e hskip => ?_) events rfl
  · rcases e with ⟨⟨name, p⟩ | name | - | name⟩ | ⟨time, p, yaml⟩
    · simp only [react]
      split <;> exact h
    · exact h
    · exact h
    · exact h
    · simp only [react, record, history_congr h]
      split
      · split
        · rfl
        · exact h
      · exact h
  · rcases e with ⟨⟨name, p⟩ | name | - | name⟩ | ⟨time, p, yaml⟩
    · simp only [react]
      split <;> rfl
    · rfl
    · rfl
    · rfl
    · cases hskip

/-- Where a pipeline can be saved under a name, the calls decide what is under it. -/
lemma get?_foldl_react {name : String} (hname : Admissible name) (hsave : CanSave can name)
    (events : List Event) (c : Contents) :
    Named.get? name (events.foldl (react can) c).snapshots =
      (events.filterMap Event.call?).foldl (Call.update name) (Named.get? name c.snapshots) := by
  induction events generalizing c with
  | nil => rfl
  | cons e events ih =>
    rw [List.foldl_cons, ih]
    rcases e with ⟨⟨other, p⟩ | other | - | other⟩ | ⟨time, p, yaml⟩
    · by_cases heq : other = name
      · subst heq
        simp [react, hname, hsave, Event.call?, Call.update, insert]
      · simp only [react]
        split <;> simp [Event.call?, Call.update, insert, heq]
    · rfl
    · rfl
    · simp [react, Event.call?, Call.update, erase]
    · rw [react, snapshots_record]
      rfl

/-- What is under a name after a pipeline was saved under it. -/
lemma get?_after_save {name : String} (hname : Admissible name) (hsave : CanSave can name)
    (p : Pipeline) (before after : List Event) :
    Named.get? name ((before ++ .call (.save name p) :: after).foldl (react can) {}).snapshots =
      lastSaved name (.save name p :: after.filterMap Event.call?) := by
  rw [List.foldl_append, List.foldl_cons, get?_foldl_react hname hsave, lastSaved, List.foldl_cons]
  simp [react, hname, hsave, insert, Call.update]

end Contents

/-- What was saved and not deleted since is still saved. -/
lemma Store.isSome_foldl_update {name : String} {calls : List Call} (h : .delete name ∉ calls)
    {last : Option Pipeline} (hlast : last.isSome = true) :
    (calls.foldl (Call.update name) last).isSome = true := by
  induction calls generalizing last with
  | nil => exact hlast
  | cons call calls ih =>
    rw [List.mem_cons, not_or] at h
    refine ih h.2 ?_
    cases call with
    | save other p =>
      rw [Call.update]
      split
      · rfl
      · exact hlast
    | load other => exact hlast
    | list => exact hlast
    | delete other =>
      have hother : other ≠ name := fun heq => h.1 (heq ▸ rfl)
      rwa [Call.update, if_neg hother]

/-- A saved pipeline stays under its name, or another one does. -/
lemma Store.isSome_lastSaved {name : String} (p : Pipeline) {after : List Event}
    (h : .call (.delete name) ∉ after) :
    (lastSaved name (.save name p :: after.filterMap Event.call?)).isSome = true := by
  rw [lastSaved, List.foldl_cons]
  refine isSome_foldl_update (fun hmem => ?_) (by simp [Call.update])
  obtain ⟨e, he, hcall⟩ := List.mem_filterMap.1 hmem
  cases e with
  | call call =>
    obtain rfl := Option.some.inj hcall
    exact h he
  | record => cases hcall

/-! ## What events do to a machine -/

namespace FolderStore

/-- The machine after an event. -/
def react (s : FolderStore) (d : Machine) : Event → Machine
  | .call call => (s.answer d call).2
  | .record time p yaml => ((d.setClock time).perform (s.record p yaml)).2

/-- The machine after some events. -/
def later (s : FolderStore) (d : Machine) (events : List Event) : Machine := events.foldl s.react d

variable {s : FolderStore} {can : Bool} {d : Machine} {c : Contents}

lemma keeps_react (h : s.Keeps can d c) {e : Event} (he : e.SparesHistory) :
    s.Keeps can (s.react d e) (c.react can e) := by
  -- one case for each operation; a refused one leaves the contents, perhaps with folders made
  rcases e with ⟨⟨name, p⟩ | name | - | name⟩ | ⟨time, p, yaml⟩
  · by_cases hvalid : Store.isName name = true
    · have hname : Admissible name := ⟨hvalid, he⟩
      by_cases hsave : CanSave can name
      · obtain ⟨d', hperform, hkeeps⟩ := perform_save h hname hsave p
        rw [react, answer, hperform, Contents.react, if_pos ⟨hname, hsave⟩]
        exact hkeeps
      · obtain ⟨reason, operation, path, d', hperform, hkeeps⟩ := perform_save_error h hname hsave p
        rw [react, answer, hperform, Contents.react, if_neg fun hboth => hsave hboth.2]
        exact hkeeps
    · rw [react, answer, perform_save_invalid d hvalid, Contents.react,
        if_neg fun hboth => hvalid hboth.1.isName]
      exact h
  · have hsame : s.react d (.call (.load name)) = d := perform_load_machine s d name
    rw [hsame]
    exact h
  · rw [react, answer, perform_list h]
    exact h
  · by_cases hvalid : Store.isName name = true
    · have hname : Admissible name := ⟨hvalid, he⟩
      cases hget : Named.get? name c.snapshots with
      | some p =>
        obtain ⟨d', hperform, hkeeps⟩ := perform_delete h hname hget
        rw [react, answer, hperform]
        exact hkeeps
      | none =>
        rw [react, answer, perform_delete_missing h hname hget, Contents.react,
          Contents.erase_eq_self hget]
        exact h
    · -- nothing is saved under a name that is refused, so that there is nothing to delete
      have hnone : Named.get? name c.snapshots = none :=
        Named.get?_eq_none_iff.2 fun hmem => hvalid (h.valid.admissible name hmem).isName
      rw [react, answer, perform_delete_invalid d hvalid, Contents.react,
        Contents.erase_eq_self hnone]
      exact h
  · exact perform_record (h.setClock time) p yaml

/-- What a folder keeps after some events. -/
lemma keeps_later (h : s.Keeps can d c) {events : List Event} (he : ∀ e ∈ events, e.SparesHistory) :
    s.Keeps can (s.later d events) (events.foldl (Contents.react can) c) := by
  induction events generalizing d c with
  | nil => exact h
  | cons e events ih =>
    rw [List.forall_mem_cons] at he
    exact ih (keeps_react h he.1) he.2

/-- Only pipelines that can be saved are saved. -/
lemma canSave_of_done (h : s.Keeps can d c) {name : String} {p : Pipeline} (hne : name ≠ "history")
    (hdone : (s.answer d (.save name p)).1 = .done) : Admissible name ∧ CanSave can name := by
  by_cases hvalid : Store.isName name = true
  · have hname : Admissible name := ⟨hvalid, hne⟩
    refine ⟨hname, ?_⟩
    by_contra hsave
    obtain ⟨reason, operation, path, d', hperform, -⟩ := perform_save_error h hname hsave p
    rw [answer, hperform] at hdone
    cases hdone
  · rw [answer, perform_save_invalid d hvalid] at hdone
    cases hdone

/-- Saved pipelines and the history do not touch each other, in a folder that did not exist, unless
a pipeline is saved or deleted under the name of the history.  The history is what it is after the
events that are about it alone; what is listed and loaded is what it is after the events that save
and delete alone.  A pipeline that was saved and not deleted since is listed and is loaded.  The
folder is new on a machine without links, so that no name in it stands for the file of another. -/
theorem saved_apart_from_history (s : FolderStore) (d : Machine) (hfolder : d.Lacks s.folder)
    (events : List Event) (hspares : ∀ e ∈ events, e.SparesHistory) :
    ((s.later d events).perform s.history).1 =
        ((s.later d (events.filter Event.isRecord)).perform s.history).1 ∧
      ((s.later d events).perform s.list).1 =
        ((s.later d (events.filter Event.isChange)).perform s.list).1 ∧
      (∀ name ≠ "history", ((s.later d events).perform (s.load name)).1 =
        ((s.later d (events.filter Event.isChange)).perform (s.load name)).1) ∧
      ∀ before name p after, events = before ++ .call (.save name p) :: after →
        (s.answer (s.later d before) (.save name p)).1 = .done →
        .call (.delete name) ∉ after →
        ∃ last names, lastSaved name (.save name p :: after.filterMap Event.call?) = some last ∧
          ((s.later d events).perform s.list).1 = .ok names ∧ name ∈ names ∧
          ((s.later d events).perform (s.load name)).1 = .ok last.sortAxes := by
  have hstart : s.Keeps (d.canMake s.folder) d {} := .lacking hfolder rfl
  have hkeeps := keeps_later hstart hspares
  have hfilter : ∀ keep : Event → Bool, s.Keeps (d.canMake s.folder)
      (s.later d (events.filter keep)) ((events.filter keep).foldl (Contents.react _) {}) :=
    fun keep => keeps_later hstart fun e he => hspares e (List.mem_of_mem_filter he)
  have hsnapshots := Contents.snapshots_foldl_react (d.canMake s.folder) events
  refine ⟨?_, ?_, fun name hne => ?_, ?_⟩
  · rw [perform_history hkeeps, perform_history (hfilter _)]
    exact Contents.history_congr (Contents.log_foldl_react _ events)
  · rw [perform_list hkeeps, perform_list (hfilter _), hsnapshots]
  · by_cases hvalid : Store.isName name = true
    · rw [perform_load hkeeps ⟨hvalid, hne⟩, perform_load (hfilter _) ⟨hvalid, hne⟩, hsnapshots]
    · rw [perform_load_invalid _ hvalid, perform_load_invalid _ hvalid]
  · rintro before name p after rfl hdone hkept
    rw [List.forall_mem_append, List.forall_mem_cons] at hspares
    obtain ⟨hname, hsave⟩ := canSave_of_done (keeps_later hstart hspares.1) hspares.2.1 hdone
    obtain ⟨last, hlast⟩ := Option.isSome_iff_exists.1 (Store.isSome_lastSaved p hkept)
    have hget := Contents.get?_after_save hname hsave p before after
    rw [hlast] at hget
    refine ⟨last, _, hlast, congrArg Prod.fst (perform_list hkeeps), ?_, ?_⟩
    · by_contra hmem
      rw [Named.get?_eq_none_iff.2 hmem] at hget
      cases hget
    · rw [perform_load hkeeps hname, hget]

/-- A history before and after a pipeline is saved, and calls that fail. -/
theorem saved_apart_from_history_crossBuild :
    let s : FolderStore := ⟨"store"⟩
    let before : List Event := [.record ⟨0, 0⟩ {} "on: push", .call (.save "a/b" {})]
    let after : List Event := [.call (.delete "api"), .record ⟨1, 0⟩ .crossBuild "stages: []"]
    let events := before ++ .call (.save "web.v2" .crossBuild) :: after
    ({} : Machine).Lacks s.folder ∧ (∀ e ∈ events, e.SparesHistory) ∧
      (s.answer (s.later {} before) (.save "web.v2" .crossBuild)).1 = .done ∧
      .call (.delete "web.v2") ∉ after ∧
      ((s.later {} events).perform s.history).1 =
        ((s.later {} (events.filter Event.isRecord)).perform s.history).1 ∧
      ((s.later {} events).perform s.list).1 =
        ((s.later {} (events.filter Event.isChange)).perform s.list).1 ∧
      (∀ name ≠ "history", ((s.later {} events).perform (s.load name)).1 =
        ((s.later {} (events.filter Event.isChange)).perform (s.load name)).1) ∧
      ∃ last names,
        lastSaved "web.v2" (.save "web.v2" .crossBuild :: after.filterMap Event.call?) = some last ∧
        ((s.later {} events).perform s.list).1 = .ok names ∧ "web.v2" ∈ names ∧
        ((s.later {} events).perform (s.load "web.v2")).1 = .ok last.sortAxes := by
  intro s before after events
  have hlacks : ({} : Machine).Lacks s.folder := Machine.lacks_store
  have hspares : ∀ e ∈ events, e.SparesHistory := by
    simp [events, before, after, Event.SparesHistory]
  have hdone : (s.answer (s.later {} before) (.save "web.v2" .crossBuild)).1 = .done := by decide
  have hkept : .call (.delete "web.v2") ∉ after := by simp [after]
  obtain ⟨hhistory, hlist, hload, hsaved⟩ := saved_apart_from_history s {} hlacks events hspares
  exact ⟨hlacks, hspares, hdone, hkept, hhistory, hlist, hload,
    hsaved before _ _ after rfl hdone hkept⟩

/-! ## Saving under the name of the history -/

/-- A text of an object is no history. -/
lemma history_savedText (p : Pipeline) : ∃ e, Store.historyCodec.ofText p.savedText = .error e := by
  obtain ⟨fields, hfields⟩ : ∃ fields, Record.codec.encode { pipeline := p } = .object fields :=
    ⟨_, rfl⟩
  obtain ⟨rest, hrest⟩ : ∃ rest, p.savedText.toList = '\x7b' :: rest := by
    rw [Pipeline.savedText, Record.toJsonText, hfields, Json.pretty, String.toList_ofList]
    cases fields <;> exact ⟨_, rfl⟩
  rw [Json.Codec.ofText, hrest]
  exact ⟨_, rfl⟩

/-- The name of the history is the exception: a pipeline saved under it takes the place of the
history, which cannot be read any more, and is not listed. -/
theorem perform_save_history (h : s.Keeps true d c) (p : Pipeline) :
    ∃ d' e, d.perform (s.save "history" p) = (.ok (), d') ∧ (d'.perform s.history).1 = .error e ∧
      (d'.perform s.list).1 = .ok (c.snapshots.map (·.1)) := by
  obtain ⟨d', way, entries, hput, hne, hopens, hholds⟩ :=
    put_ok h isFileName_historyFile (by decide) "save config" p.savedText
  have hkeeps : s.Keeps true d' (c.setLog p.savedText) :=
    .opened hne rfl hopens ⟨h.valid.ordered, h.valid.admissible, h.valid.short⟩ (hholds.setLog _)
  obtain ⟨e, he⟩ := history_savedText p
  have hhistory : (c.setLog p.savedText).history = .error (.unreadable e.message) := by
    rw [Contents.history, Contents.setLog]
    simp only [he, Except.mapError]
  refine ⟨d', _, ?_, by rw [perform_history hkeeps, hhistory], by rw [perform_list hkeeps]; rfl⟩
  exact (perform_save_eq s d (by decide) p).trans hput

end FolderStore

end Pipework
