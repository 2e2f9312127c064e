import Mathlib.Data.List.DropRight
import Pipework.Pipeline.Basic
import Pipework.Proofs.Yaml.Document
import Pipework.Proofs.Yaml.Resolve

/-!
# What pipelines hold

The parts of a pipeline as the documents of both formats must say them, from its fields alone: texts
without the white space around them, the axes of a matrix that have values, variables, and keys that
no quotes mark as strings.  Nothing here is taken from the emitters.
-/

namespace Pipework

open Yaml

/-! ## Texts -/

/-- The code points of white space. -/
def spaces : List Nat :=
  [0x9, 0xA, 0xB, 0xC, 0xD, 0x20, 0x85, 0xA0, 0x1680] ++ List.range' 0x2000 11 ++
    [0x2028, 0x2029, 0x202F, 0x205F, 0x3000]

/-- A text without the white space at its ends. -/
def trimmed (s : List Char) : List Char :=
  (s.dropWhile fun c => spaces.contains c.toNat).rdropWhile fun c => spaces.contains c.toNat

lemma isSpace_eq (c : Char) : Text.isSpace c = spaces.contains c.toNat := by
  rw [Bool.eq_iff_iff]
  simp only [Text.isSpace, spaces, Bool.or_eq_true, Bool.and_eq_true, decide_eq_true_eq, beq_iff_eq,
    List.contains_iff_mem, List.mem_append, List.mem_cons, List.not_mem_nil, or_false,
    List.mem_range'_1]
  omega

lemma dropEndWhile_eq_rdropWhile (p : Char → Bool) (s : List Char) :
    Text.dropEndWhile p s = s.rdropWhile p := by
  induction s with
  | nil => rfl
  | cons c rest ih =>
    rw [Text.dropEndWhile, rdropWhile_cons, ih]
    cases hrest : rest.rdropWhile p with
    | nil => simp
    | cons d kept => simp

lemma trim_eq_trimmed (s : List Char) : Text.trim s = trimmed s := by
  rw [Text.trim, Text.trimEnd, Text.trimStart, dropEndWhile_eq_rdropWhile, funext isSpace_eq,
    trimmed]

/-- A text is blank if nothing of it is left between the white space at its ends. -/
lemma isBlank_iff {s : List Char} : Text.isBlank s = true ↔ trimmed s = [] := by
  rw [← trim_eq_trimmed, Text.trim, Text.trimEnd, Text.trimStart, dropEndWhile_eq_rdropWhile,
    List.rdropWhile_eq_nil_iff, Text.isBlank, List.all_eq_true]
  constructor
  · intro h c hc
    exact h c ((List.dropWhile_suffix _).subset hc)
  · intro h
    have hnil : s.dropWhile Text.isSpace = [] := by
      by_contra hne
      have hhead := List.head_dropWhile_not Text.isSpace hne
      simp [h _ (List.head_mem hne)] at hhead
    exact List.dropWhile_eq_nil_iff.1 hnil

/-! ## Parts of jobs -/

/-- The axes of a job's matrix that have values. -/
def Job.axes (job : Job) : List (String × List String) :=
  match job.strategy.bind (·.matrix) with
  | none => []
  | some matrix => matrix.axes.filter fun axis => axis.2 ≠ []

/-- The axes as the fields of an object. -/
def Job.axisFields (job : Job) : List (Typed × Typed) :=
  job.axes.map fun axis => (.string axis.1, strings axis.2)

/-- The variables of a job. -/
def Job.variableFields (job : Job) : List (Typed × Typed) :=
  job.envVars.map fun v => (.string v.key, .string v.value)

/-! ## Keys without quotes -/

/-- What a name of upper-case letters is to a reader where no quotes mark it as a string. -/
def bareKey (name : String) : Typed :=
  if name = "NULL" then .null
  else if name = "TRUE" then .bool true
  else if name = "FALSE" then .bool false
  else .string name

lemma same_bareKey {s t : String} (h : s ≠ t) : (bareKey s).same (bareKey t) = false := by
  unfold bareKey
  split_ifs <;> simp_all [Typed.same]

end Pipework
