import Pipework.Proofs.Store.Calls

/-!
# Two stores of the same pipelines

A store in memory and one in a folder that did not exist give the same answers to the same calls,
where the folder can be made and the files that pipelines are saved in can have their names:
`answer_eq_memory`.  They are the answers that the calls made before demand.  One call is
`answer_step`; between calls, the folder keeps what is in memory.
-/

namespace Pipework

open Disk (Machine)
open Store (Call Answer lastSaved)

/-- The answer to a call that the calls made before it demand. -/
def Store.Call.Expects (before : List Call) : Call → Answer → Prop
  | .save _ _, answer => answer = .done
  | .load name, answer => answer = (lastSaved name before).elim (.failed (.notFound name)) .pipeline
  | .list, answer => ∃ names, answer = .names names ∧ names.Pairwise (· < ·) ∧
      ∀ name, name ∈ names ↔ (lastSaved name before).isSome = true
  | .delete name, answer =>
    answer = if (lastSaved name before).isSome then .done else .failed (.notFound name)

/-- A store in memory answers as it should. -/
lemma MemoryStore.expects_answer {s : MemoryStore} {before : List Call} {call : Call}
    (hs : Named.Ordered s.entries) (hcall : call.Admissible)
    (h : ∀ name, Named.get? name s.entries = lastSaved name before) :
    call.Expects before (s.answer call).1 := by
  cases call with
  | save name p =>
    rw [answer_save (hcall name rfl).isName]
    rfl
  | load name =>
    rw [answer_load, h, Call.Expects]
    cases lastSaved name before <;> rfl
  | list =>
    refine ⟨_, rfl, hs, fun name => ?_⟩
    rw [← h, ← Option.ne_none_iff_isSome, ne_eq, Named.get?_eq_none_iff, not_not]
    rfl
  | delete name =>
    rw [answer_delete, h, Call.Expects]
    cases lastSaved name before <;> rfl

namespace FolderStore

variable {s : FolderStore} {can : Bool} {d : Machine} {m : MemoryStore}

/-- A folder that keeps what is in memory answers as the memory does, and keeps it. -/
lemma answer_step (h : s.Keeps can d ⟨m.entries, none⟩) {call : Call} (hcall : call.Admissible)
    (hsave : ∀ name ∈ call.saved?, CanSave can name) :
    (s.answer d call).1 = (m.answer call).1.sortAxes ∧
      s.Keeps can (s.answer d call).2 ⟨(m.answer call).2.entries, none⟩ := by
  cases call with
  | save name p =>
    have hname := hcall name rfl
    obtain ⟨d', hperform, hkeeps⟩ := perform_save h hname (hsave name rfl) p
    rw [MemoryStore.answer_save hname.isName, answer, hperform]
    exact ⟨rfl, hkeeps⟩
  | load name =>
    rw [MemoryStore.answer_load, answer, perform_load h (hcall name rfl)]
    refine ⟨?_, h⟩
    simp only
    cases Named.get? name m.entries <;> rfl
  | list =>
    rw [answer, perform_list h]
    exact ⟨rfl, h⟩
  | delete name =>
    have hname := hcall name rfl
    rw [MemoryStore.answer_delete, answer]
    cases hget : Named.get? name m.entries with
    | some p =>
      obtain ⟨d', hperform, hkeeps⟩ := perform_delete h hname hget
      rw [hperform]
      exact ⟨rfl, hkeeps⟩
    | none =>
      rw [perform_delete_missing h hname hget]
      exact ⟨rfl, h⟩

lemma keeps_after (h : s.Keeps can d ⟨m.entries, none⟩) {calls : List Call}
    (hcalls : ∀ call ∈ calls, call.Admissible)
    (hsaves : ∀ call ∈ calls, ∀ name ∈ call.saved?, CanSave can name) :
    s.Keeps can (s.after d calls) ⟨(m.after calls).entries, none⟩ := by
  induction calls generalizing d m with
  | nil => exact h
  | cons call calls ih =>
    rw [List.forall_mem_cons] at hcalls hsaves
    exact ih (answer_step h hcalls.1 hsaves.1).2 hcalls.2 hsaves.2

/-- A store in a folder that did not exist on a machine without links is a store in memory, if each
pipeline that is saved can be: the folder can be made, and the name of the file is not too
long.  Whatever was called before, the next call gets the same answer, but for the axes of a loaded
pipeline, which stand in the order of their names; and it is the answer that the calls demand. -/
theorem answer_eq_memory (s : FolderStore) (d : Machine) (hfolder : d.Lacks s.folder)
    (before : List Call) (call : Call) (hnames : ∀ c ∈ before ++ [call], c.Admissible)
    (hsaves : ∀ c ∈ before ++ [call], ∀ name ∈ c.saved?, CanSave (d.canMake s.folder) name) :
    ∃ answer, ((({} : MemoryStore).after before).answer call).1 = answer ∧
      (s.answer (s.after d before) call).1 = answer.sortAxes ∧ call.Expects before answer := by
  rw [List.forall_mem_append, List.forall_mem_singleton] at hnames hsaves
  obtain ⟨hordered, hget⟩ := MemoryStore.get?_after (s := {}) Named.ordered_nil hnames.1
  have hkeeps := keeps_after (m := {}) (.lacking hfolder rfl) hnames.1 hsaves.1
  exact ⟨_, rfl, (answer_step hkeeps hnames.2 hsaves.2).1,
    MemoryStore.expects_answer hordered hnames.2 hget⟩

/-- Saving, listing, deleting and loading with dots in the names. -/
theorem answer_eq_memory_crossBuild :
    let s : FolderStore := ⟨"store"⟩
    let before : List Call := [.save "web.v2" {}, .save "api" {}, .list, .save "web.v2" .crossBuild,
      .delete "api"]
    ({} : Machine).Lacks s.folder ∧ (∀ c ∈ before ++ [.load "web.v2"], c.Admissible) ∧
      (∀ c ∈ before ++ [.load "web.v2"], ∀ name ∈ c.saved?,
        CanSave (({} : Machine).canMake s.folder) name) ∧
      ∃ answer, ((({} : MemoryStore).after before).answer (.load "web.v2")).1 = answer ∧
        (s.answer (s.after {} before) (.load "web.v2")).1 = answer.sortAxes ∧
        (Call.load "web.v2").Expects before answer := by
  intro s before
  have hlacks : ({} : Machine).Lacks s.folder := Machine.lacks_store
  have hnames : ∀ c ∈ before ++ [.load "web.v2"], c.Admissible := by decide
  have hsaves : ∀ c ∈ before ++ [.load "web.v2"], ∀ name ∈ c.saved?,
      CanSave (({} : Machine).canMake s.folder) name := by decide
  exact ⟨hlacks, hnames, hsaves, answer_eq_memory s {} hlacks before _ hnames hsaves⟩

end FolderStore

end Pipework
