import Pipework.Proofs.Store.Folder
import Pipework.Store.Memory

/-!
# Calls of a store

What can be asked of saved pipelines, and what stores in memory and in a folder answer.  `lastSaved`
says what calls leave under a name, without a store: the last call that saves or deletes the name
decides.
-/

namespace Pipework

open Disk (Machine)
open FolderStore (Admissible)

namespace Store

/-! ## Calls and answers -/

/-- What is asked of a store. -/
inductive Call where
  | save (name : String) (p : Pipeline)
  | load (name : String)
  | list
  | delete (name : String)
deriving DecidableEq

namespace Call

/-- The name that a call is about. -/
def name? : Call → Option String
  | save name _ => some name
  | load name => some name
  | list => none
  | delete name => some name

/-- Whether the name of a call can be one of a saved pipeline. -/
def Admissible (call : Call) : Prop := ∀ name ∈ call.name?, FolderStore.Admissible name

instance (call : Call) : Decidable call.Admissible :=
  inferInstanceAs (Decidable (∀ name ∈ call.name?, FolderStore.Admissible name))

/-- The name that a call saves a pipeline under. -/
def saved? : Call → Option String
  | save name _ => some name
  | load _ | list | delete _ => none

/-- What is saved under a name after a call, if it was something else before. -/
def update (name : String) (last : Option Pipeline) : Call → Option Pipeline
  | save other p => if other = name then some p else last
  | delete other => if other = name then none else last
  | load _ => last
  | list => last

end Call

/-- What calls leave under a name. -/
def lastSaved (name : String) (calls : List Call) : Option Pipeline :=
  calls.foldl (Call.update name) none

/-- What a store answers. -/
inductive Answer where
  | done
  | pipeline (p : Pipeline)
  | names (names : List String)
  | failed (e : Failure)
deriving DecidableEq

namespace Answer

/-- The answer that a result is. -/
def of {α : Type} (answer : α → Answer) : Except Failure α → Answer
  | .ok x => answer x
  | .error e => failed e

/-- The answer with the axes of a pipeline in the order of their names. -/
def sortAxes : Answer → Answer
  | pipeline p => pipeline p.sortAxes
  | answer => answer

/-- Whether an answer says that a file operation failed. -/
def isFileFault : Answer → Bool
  | failed (.file ..) => true
  | _ => false

end Answer

end Store

open Store (Call Answer)

/-! ## A store in memory -/

namespace MemoryStore

/-- What a store answers, and the store afterwards. -/
def answer (s : MemoryStore) : Call → Answer × MemoryStore
  | .save name p =>
    match s.save name p with
    | .ok s' => (.done, s')
    | .error e => (.failed e, s)
  | .load name => (.of .pipeline (s.load name), s)
  | .list => (.names s.list, s)
  | .delete name =>
    match s.delete name with
    | .ok s' => (.done, s')
    | .error e => (.failed e, s)

/-- The store after some calls. -/
def after (s : MemoryStore) (calls : List Call) : MemoryStore :=
  calls.foldl (fun s call => (s.answer call).2) s

variable {s : MemoryStore}

lemma answer_save {name : String} (h : Store.isName name = true) (p : Pipeline) :
    s.answer (.save name p) = (.done, ⟨Named.insert name p s.entries⟩) := by
  simp only [answer, save, Store.checkName, h, if_true]
  rfl

lemma answer_load (name : String) :
    s.answer (.load name) =
      (match Named.get? name s.entries with
        | some p => .pipeline p
        | none => .failed (.notFound name), s) := by
  simp only [answer, load]
  cases Named.get? name s.entries <;> rfl

lemma answer_delete (name : String) :
    s.answer (.delete name) =
      match Named.get? name s.entries with
        | some _ => (.done, ⟨Named.erase name s.entries⟩)
        | none => (.failed (.notFound name), s) := by
  simp only [answer, delete]
  cases Named.get? name s.entries <;> rfl

/-- A call changes what is saved under its name. -/
lemma get?_answer (s : MemoryStore) {call : Call} (h : call.Admissible) (name : String) :
    Named.get? name (s.answer call).2.entries = call.update name (Named.get? name s.entries) := by
  cases call with
  | save other p => simp [answer_save (h other rfl).isName, Call.update]
  | load other => rfl
  | list => rfl
  | delete other =>
    rw [answer_delete]
    cases hget : Named.get? other s.entries with
    | some p => simp [Call.update]
    | none =>
      by_cases heq : other = name
      · simp [Call.update, heq, ← hget]
      · simp [Call.update, heq]

lemma ordered_answer {call : Call} (hs : Named.Ordered s.entries) (h : call.Admissible) :
    Named.Ordered (s.answer call).2.entries := by
  cases call with
  | save other p =>
    rw [answer_save (h other rfl).isName]
    exact hs.insert other p
  | load other => exact hs
  | list => exact hs
  | delete other =>
    rw [answer_delete]
    split
    · exact hs.erase other
    · exact hs

/-- What calls leave is in the store, and the store is in the order of the names. -/
theorem get?_after {calls : List Call} (hs : Named.Ordered s.entries)
    (h : ∀ call ∈ calls, call.Admissible) :
    Named.Ordered (s.after calls).entries ∧ ∀ name, Named.get? name (s.after calls).entries =
      calls.foldl (Call.update name) (Named.get? name s.entries) := by
  induction calls generalizing s with
  | nil => exact ⟨hs, fun _ => rfl⟩
  | cons call calls ih =>
    rw [List.forall_mem_cons] at h
    obtain ⟨hordered, hget⟩ := ih (ordered_answer hs h.1) h.2
    refine ⟨hordered, fun name => (hget name).trans ?_⟩
    rw [get?_answer s h.1, List.foldl_cons]

end MemoryStore

/-! ## A store in a folder -/

namespace FolderStore

/-- What a store answers on a machine, and the machine afterwards. -/
def answer (s : FolderStore) (d : Machine) : Call → Answer × Machine
  | .save name p => (d.perform (s.save name p)).map (.of fun _ => .done) id
  | .load name => (d.perform (s.load name)).map (.of .pipeline) id
  | .list => (d.perform s.list).map (.of .names) id
  | .delete name => (d.perform (s.delete name)).map (.of fun _ => .done) id

/-- The machine after some calls. -/
def after (s : FolderStore) (d : Machine) (calls : List Call) : Machine :=
  calls.foldl (fun d call => (s.answer d call).2) d

end FolderStore

/-- On an empty machine the folder does not exist. -/
lemma Disk.Machine.lacks_store : ({} : Machine).Lacks "store" := by
  refine ⟨by decide, fun t hfind => ?_, .inl (by decide)⟩
  have hnone : (({} : Machine).find "store").isOk = false := by decide
  rw [hfind] at hnone
  cases hnone

/-- A pipeline whose text has the axes of a matrix in another order. -/
def Pipeline.crossBuild : Pipeline where
  jobs := [((Job.named "test").withAxis "os" ["linux"]).withAxis "arch" ["x64", "arm64"]]

end Pipework
