import Mathlib.Data.List.Count
import Mathlib.Data.List.Nodup
import Mathlib.Data.List.Perm.Basic
import Mathlib.Tactic.ByContra
import Mathlib.Tactic.Lemma
import Mathlib.Tactic.Tauto
import Pipework.Pipeline.Consistency

/-!
# What a consistent pipeline is

The violations of a pipeline are found in one pass, in which every name is looked for among those
before it.  Sorted by kind they are easier to speak of: up to their order they are the violations of
each secret and of each job on its own, and one more for each time that a name comes back
(`ofSecrets_perm`, `ofJobs_perm`).  How often a name comes back depends on its number alone
(`count_repeats`).

`Pipeline.Consistent` says without any pass what a pipeline should keep to.  The pipelines without
violations are those that do (`Pipeline.violations_eq_nil_iff`).
-/

namespace Pipework

open scoped List

namespace Consistency

/-! ## Names that come back -/

/-- A name comes back each time that it stands there, but the first time if it is new. -/
theorem count_repeats (x : String) (earlier xs : List String) :
    (repeats earlier xs).count x = if x ∈ earlier then xs.count x else xs.count x - 1 := by
  induction xs generalizing earlier with
  | nil => simp [repeats]
  | cons y rest ih =>
    by_cases hy : y ∈ earlier
    · rw [repeats, if_pos (List.contains_iff_mem.2 hy), List.count_cons, List.count_cons, ih]
      by_cases hyx : y = x
      · simp [hyx ▸ hy]
      · simp [hyx]
    · rw [repeats, if_neg (by simpa using hy), ih, List.count_cons]
      by_cases hyx : y = x
      · simp [hyx, hyx ▸ hy]
      · simp [hyx, Ne.symm hyx]

/-- No name comes back where none stands twice. -/
lemma repeats_eq_nil_iff {xs : List String} : repeats [] xs = [] ↔ xs.Nodup := by
  rw [List.nodup_iff_count_le_one, List.eq_nil_iff_forall_not_mem]
  refine forall_congr' fun x => ?_
  rw [← List.count_eq_zero, count_repeats, if_neg List.not_mem_nil, Nat.sub_eq_zero_iff_le]

/-- Which names come back depends on what stands before them as a set. -/
lemma repeats_congr {earlier earlier' : List String} (h : ∀ x, x ∈ earlier ↔ x ∈ earlier')
    (xs : List String) : repeats earlier xs = repeats earlier' xs := by
  induction xs generalizing earlier earlier' with
  | nil => rfl
  | cons y rest ih =>
    have hcontains : earlier.contains y = earlier'.contains y := by
      rw [Bool.eq_iff_iff, List.contains_iff_mem, List.contains_iff_mem]
      exact h y
    have hcons : ∀ x, x ∈ y :: earlier ↔ x ∈ y :: earlier' := by simp [h]
    rw [repeats, repeats, hcontains, ih h, ih hcons]

/-- Whether the first name comes back is told before the rest. -/
lemma map_repeats_cons {α : Type} (f : String → α) (earlier : List String) (x : String)
    (xs : List String) :
    (repeats earlier (x :: xs)).map f =
      (if earlier.contains x then [f x] else []) ++ (repeats (x :: earlier) xs).map f := by
  rw [repeats]
  split
  case isFalse => rfl
  case isTrue hx =>
    have hsame : ∀ y, y ∈ earlier ↔ y ∈ x :: earlier := by
      intro y
      rw [List.mem_cons]
      exact ⟨.inr, fun hy => hy.elim (fun heq => heq ▸ List.contains_iff_mem.1 hx) id⟩
    rw [repeats_congr hsame]
    rfl

/-! ## Violations by kind -/

/-- What is wrong with a secret on its own. -/
def ofKey (s : Secret) : List Violation :=
  if isSecretKey s.key then [] else [.invalidSecretKey s.key]

/-- What is wrong with a job on its own, given the names of all jobs. -/
def ofJob (names : List String) (job : Job) : List Violation :=
  (if isJobName job.name then [] else [.invalidJobName job.name]) ++
    job.needs.flatMap (ofNeed names job.name) ++ ofContents job

/-- What is found `here` can be told apart from what is found of `own` alone. -/
lemma append_perm_of_perm {rest alone again : List Violation} (h : rest ~ alone ++ again)
    (here own : List Violation) :
    here ++ (own ++ rest) ~ (own ++ alone) ++ (here ++ again) :=
  calc here ++ (own ++ rest)
    _ ~ here ++ ((own ++ alone) ++ again) := by
      rw [List.append_assoc]
      exact .append_left _ (.append_left _ h)
    _ ~ (own ++ alone) ++ (here ++ again) := List.perm_append_comm_assoc ..

/-- The secrets are judged one by one, and then by the keys that come back. -/
theorem ofSecrets_perm (earlier : List String) (secrets : List Secret) :
    ofSecrets earlier secrets ~
      secrets.flatMap ofKey ++ (repeats earlier (secrets.map (·.key))).map .duplicateSecret := by
  induction secrets generalizing earlier with
  | nil => exact .refl _
  | cons s rest ih =>
    rw [ofSecrets, List.flatMap_cons, List.map_cons, map_repeats_cons, List.append_assoc,
      List.append_assoc]
    exact .append_left (ofKey s) (append_perm_of_perm (ih _) _ [])

/-- The jobs are judged one by one, and then by the names that come back. -/
theorem ofJobs_perm (names earlier : List String) (jobs : List Job) :
    ofJobs names earlier jobs ~
      jobs.flatMap (ofJob names) ++
        (repeats earlier (jobs.map (·.name))).map .duplicateJobName := by
  induction jobs generalizing earlier with
  | nil => exact .refl _
  | cons job rest ih =>
    have hperm := append_perm_of_perm (ih (job.name :: earlier))
      (if earlier.contains job.name then [.duplicateJobName job.name] else [])
      (job.needs.flatMap (ofNeed names job.name) ++ ofContents job)
    rw [ofJobs, List.flatMap_cons, List.map_cons, map_repeats_cons, ofJob]
    simp only [List.append_assoc] at hperm ⊢
    exact .append_left _ hperm

/-! ## Names that are allowed -/

/-- A letter from A to Z, a digit or an underscore. -/
def IsKeyLetter (c : Char) : Prop := ('A' ≤ c ∧ c ≤ 'Z') ∨ ('0' ≤ c ∧ c ≤ '9') ∨ c = '_'

/-- Upper-case letters, digits and underscores that do not begin with a digit. -/
structure IsUppercaseIdentifier (key : String) : Prop where
  ne_empty : key ≠ ""
  letters : ∀ c ∈ key.toList, IsKeyLetter c
  first : ∀ c ∈ key.toList.head?, ¬ ('0' ≤ c ∧ c ≤ '9')

lemma isUpper_iff {c : Char} : c.isUpper = true ↔ 'A' ≤ c ∧ c ≤ 'Z' :=
  decide_eq_true_iff

lemma isDigit_iff {c : Char} : c.isDigit = true ↔ '0' ≤ c ∧ c ≤ '9' := by
  simp [Char.isDigit, Char.le_def]

lemma isKeyChar_iff {c : Char} : isKeyChar c = true ↔ IsKeyLetter c := by
  rw [isKeyChar, Bool.or_eq_true, Bool.or_eq_true, isUpper_iff, isDigit_iff, beq_iff_eq, or_assoc]
  rfl

/-- The names that a secret can have are the identifiers in upper case. -/
theorem isSecretKey_iff {key : String} :
    isSecretKey key = true ↔ IsUppercaseIdentifier key := by
  rw [isSecretKey, Bool.and_eq_true, List.all_eq_true, Option.any_eq_true]
  simp only [isKeyChar_iff, Bool.or_eq_true, isUpper_iff, beq_iff_eq]
  constructor
  · rintro ⟨⟨c, hhead, hc⟩, hletters⟩
    refine ⟨?_, hletters, ?_⟩
    · rintro rfl
      cases hhead
    · rintro d hd ⟨-, hle⟩
      obtain rfl := Option.some.inj (hd.symm.trans hhead)
      rcases hc with ⟨hge, -⟩ | rfl
      · exact absurd (Char.le_trans hge hle) (by decide)
      · exact absurd hle (by decide)
  · rintro ⟨hne, hletters, hfirst⟩
    obtain ⟨c, rest, hkey⟩ := List.exists_cons_of_ne_nil (mt String.toList_eq_nil_iff.1 hne)
    rw [hkey] at hfirst hletters ⊢
    have hdigit := hfirst c rfl
    have hletter := hletters c List.mem_cons_self
    exact ⟨⟨c, rfl, by unfold IsKeyLetter at hletter; tauto⟩, hletters⟩

/-- The names that a job can have are those with characters, none of them white space. -/
lemma isJobName_iff {name : String} :
    isJobName name = true ↔ name ≠ "" ∧ ∀ c ∈ name.toList, Text.isSpace c = false := by
  simp [isJobName]

/-! ## Parts without violations -/

lemma ofTrigger_eq_nil_iff {t : Trigger} :
    ofTrigger t = [] ↔ (t.push = true ∨ t.pullRequest = true → t.branches ≠ []) := by
  simp [ofTrigger]

lemma ofKey_eq_nil_iff {s : Secret} : ofKey s = [] ↔ IsUppercaseIdentifier s.key := by
  rw [ofKey, ite_eq_left_iff, ← isSecretKey_iff]
  simp

lemma ofNeed_eq_nil_iff {names : List String} {job need : String} :
    ofNeed names job need = [] ↔ need ≠ job ∧ need ∈ names := by
  unfold ofNeed
  by_cases hself : need = job <;> simp [hself]

lemma ofContents_eq_nil_iff {job : Job} :
    ofContents job = [] ↔
      (job.steps.Pairwise fun a b => a.id = b.id → a.id = "") ∧
        job.envVars.Pairwise (·.key ≠ ·.key) := by
  have hsteps : ((job.steps.map (·.id)).filter (· ≠ "")).Nodup ↔
      job.steps.Pairwise fun a b => a.id = b.id → a.id = "" := by
    rw [List.Nodup, List.pairwise_filter, List.pairwise_map]
    refine List.Pairwise.iff fun {a b} => ?_
    rw [decide_eq_true_eq, decide_eq_true_eq]
    constructor
    · intro h heq
      by_contra hne
      exact h hne (heq ▸ hne) heq
    · exact fun h hne _ heq => hne (h heq)
  have henv : (job.envVars.map (·.key)).Nodup ↔ job.envVars.Pairwise (·.key ≠ ·.key) :=
    List.pairwise_map
  rw [ofContents, List.append_eq_nil_iff, List.map_eq_nil_iff, List.map_eq_nil_iff,
    repeats_eq_nil_iff, repeats_eq_nil_iff, hsteps, henv]

end Consistency

/-! ## Consistent pipelines -/

/-- What a job of a pipeline should keep to. -/
structure Job.Consistent (p : Pipeline) (job : Job) : Prop where
  name_ne : job.name ≠ ""
  /-- The name has no white space. -/
  name_solid : ∀ c ∈ job.name.toList, Text.isSpace c = false
  /-- What the job needs is another job of the pipeline. -/
  needs : ∀ need ∈ job.needs, need ≠ job.name ∧ ∃ other ∈ p.jobs, other.name = need
  /-- No two steps share an identifier, unless they have none. -/
  steps : job.steps.Pairwise fun a b => a.id = b.id → a.id = ""
  /-- No two variables share a name. -/
  envVars : job.envVars.Pairwise (·.key ≠ ·.key)

/-- What a pipeline should keep to. -/
structure Pipeline.Consistent (p : Pipeline) : Prop where
  /-- Where pushes or pull requests count, they do so for some branch. -/
  branches : p.triggers.push = true ∨ p.triggers.pullRequest = true → p.triggers.branches ≠ []
  keys : ∀ s ∈ p.secrets, Consistency.IsUppercaseIdentifier s.key
  /-- No two secrets share a name. -/
  secrets : p.secrets.Pairwise (·.key ≠ ·.key)
  job : ∀ job ∈ p.jobs, job.Consistent p
  /-- No two jobs share a name. -/
  jobs : p.jobs.Pairwise (·.name ≠ ·.name)

namespace Consistency

lemma ofSecrets_eq_nil_iff {secrets : List Secret} :
    ofSecrets [] secrets = [] ↔
      (∀ s ∈ secrets, IsUppercaseIdentifier s.key) ∧ secrets.Pairwise (·.key ≠ ·.key) := by
  rw [← List.perm_nil, (ofSecrets_perm [] secrets).congr_left, List.perm_nil,
    List.append_eq_nil_iff, List.flatMap_eq_nil_iff, List.map_eq_nil_iff, repeats_eq_nil_iff,
    List.Nodup, List.pairwise_map]
  simp only [ofKey_eq_nil_iff]

lemma ofJob_eq_nil_iff {p : Pipeline} {job : Job} :
    ofJob (p.jobs.map (·.name)) job = [] ↔ job.Consistent p := by
  have hname : (if isJobName job.name then [] else [Violation.invalidJobName job.name]) = [] ↔
      job.name ≠ "" ∧ ∀ c ∈ job.name.toList, Text.isSpace c = false := by
    rw [ite_eq_left_iff, ← isJobName_iff]
    simp
  rw [ofJob, List.append_eq_nil_iff, List.append_eq_nil_iff, hname, List.flatMap_eq_nil_iff,
    ofContents_eq_nil_iff]
  simp only [ofNeed_eq_nil_iff, List.mem_map]
  constructor
  · rintro ⟨⟨⟨hne, hsolid⟩, hneeds⟩, hsteps, henv⟩
    exact ⟨hne, hsolid, hneeds, hsteps, henv⟩
  · rintro ⟨hne, hsolid, hneeds, hsteps, henv⟩
    exact ⟨⟨⟨hne, hsolid⟩, hneeds⟩, hsteps, henv⟩

lemma ofJobs_eq_nil_iff {p : Pipeline} :
    ofJobs (p.jobs.map (·.name)) [] p.jobs = [] ↔
      (∀ job ∈ p.jobs, job.Consistent p) ∧ p.jobs.Pairwise (·.name ≠ ·.name) := by
  rw [← List.perm_nil, (ofJobs_perm _ [] p.jobs).congr_left, List.perm_nil,
    List.append_eq_nil_iff, List.flatMap_eq_nil_iff, List.map_eq_nil_iff, repeats_eq_nil_iff,
    List.Nodup, List.pairwise_map]
  simp only [ofJob_eq_nil_iff]

end Consistency

/-- The pipelines without violations are the consistent ones. -/
theorem Pipeline.violations_eq_nil_iff (p : Pipeline) : p.violations = [] ↔ p.Consistent := by
  rw [Pipeline.violations, List.append_eq_nil_iff, List.append_eq_nil_iff,
    Consistency.ofTrigger_eq_nil_iff, Consistency.ofSecrets_eq_nil_iff,
    Consistency.ofJobs_eq_nil_iff]
  constructor
  · rintro ⟨⟨hbranches, hkeys, hsecrets⟩, hjob, hjobs⟩
    exact ⟨hbranches, hkeys, hsecrets, hjob, hjobs⟩
  · rintro ⟨hbranches, hkeys, hsecrets, hjob, hjobs⟩
    exact ⟨⟨hbranches, hkeys, hsecrets⟩, hjob, hjobs⟩

end Pipework
