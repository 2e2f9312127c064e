import Mathlib.Data.List.Forall2
import Pipework.Proofs.Pipeline.Consistency

/-!
# The order of declarations

Violations are told where they are met, so that of two jobs with one name it is the later one that
is reported.  Which violations there are does not depend on that: `Pipeline.Reordered` relates
pipelines that declare the same things in another order, and such pipelines have the same
violations, each as often (`Pipeline.violations_perm`).
-/

namespace Pipework

open scoped List

/-- The same job but for the order of its steps, its variables and what it needs. -/
structure Job.Reordered (a b : Job) : Prop where
  steps : a.steps ~ b.steps
  envVars : a.envVars ~ b.envVars
  needs : a.needs ~ b.needs
  rest : b = { a with steps := b.steps, envVars := b.envVars, needs := b.needs }

/-- The same pipeline but for the order of its secrets, of its jobs, and of what each job lists. -/
structure Pipeline.Reordered (p q : Pipeline) : Prop where
  secrets : p.secrets ~ q.secrets
  jobs : ∃ jobs, p.jobs ~ jobs ∧ List.Forall₂ Job.Reordered jobs q.jobs
  rest : q = { p with secrets := q.secrets, jobs := q.jobs }

lemma Job.Reordered.name_eq {a b : Job} (h : a.Reordered b) : a.name = b.name := by
  rw [h.rest]

namespace Consistency

/-- Names that come back do so in any order. -/
lemma repeats_perm {xs ys : List String} (h : xs ~ ys) : repeats [] xs ~ repeats [] ys := by
  rw [List.perm_iff_count]
  intro x
  rw [count_repeats, count_repeats, h.count_eq]

/-- What a job needs is looked for among the names of all jobs, in any order. -/
lemma ofNeed_congr {names names' : List String} (h : names ~ names') (job need : String) :
    ofNeed names job need = ofNeed names' job need := by
  have hcontains : names.contains need = names'.contains need := by
    rw [Bool.eq_iff_iff, List.contains_iff_mem, List.contains_iff_mem]
    exact h.mem_iff
  rw [ofNeed, hcontains, ofNeed]

lemma ofContents_perm {a b : Job} (h : a.Reordered b) : ofContents a ~ ofContents b := by
  rw [ofContents, ofContents, h.name_eq]
  refine .append (.map _ (repeats_perm ?_)) (.map _ (repeats_perm ?_))
  · exact (h.steps.map _).filter _
  · exact h.envVars.map _

lemma ofJob_perm {names names' : List String} (hnames : names ~ names') {a b : Job}
    (h : a.Reordered b) : ofJob names a ~ ofJob names' b := by
  rw [ofJob, ofJob, h.name_eq, funext (ofNeed_congr hnames b.name)]
  exact .append (.append_left _ (h.needs.flatMap_right _)) (ofContents_perm h)

lemma ofSecrets_perm_of_perm {secrets secrets' : List Secret} (h : secrets ~ secrets') :
    ofSecrets [] secrets ~ ofSecrets [] secrets' :=
  calc ofSecrets [] secrets
    _ ~ secrets.flatMap ofKey ++ (repeats [] (secrets.map (·.key))).map .duplicateSecret :=
      ofSecrets_perm [] secrets
    _ ~ secrets'.flatMap ofKey ++ (repeats [] (secrets'.map (·.key))).map .duplicateSecret :=
      .append (h.flatMap_right _) (.map _ (repeats_perm (h.map _)))
    _ ~ ofSecrets [] secrets' := (ofSecrets_perm [] secrets').symm

lemma flatMap_ofJob_perm {names names' : List String} (hnames : names ~ names')
    {jobs jobs' : List Job} (h : List.Forall₂ Job.Reordered jobs jobs') :
    jobs.flatMap (ofJob names) ~ jobs'.flatMap (ofJob names') := by
  induction h with
  | nil => exact .refl _
  | cons hjob _ ih =>
    rw [List.flatMap_cons, List.flatMap_cons]
    exact .append (ofJob_perm hnames hjob) ih

end Consistency

namespace Pipeline.Reordered

variable {p q : Pipeline}

/-- The jobs have the same names. -/
lemma names_perm (h : p.Reordered q) : p.jobs.map (·.name) ~ q.jobs.map (·.name) := by
  obtain ⟨jobs, hperm, hjobs⟩ := h.jobs
  have hnames : jobs.map (·.name) = q.jobs.map (·.name) := by
    rw [← List.forall₂_eq_eq_eq, List.forall₂_map_left_iff, List.forall₂_map_right_iff]
    exact hjobs.imp fun _ _ hjob => hjob.name_eq
  exact hnames ▸ hperm.map _

lemma ofJobs_perm (h : p.Reordered q) :
    Consistency.ofJobs (p.jobs.map (·.name)) [] p.jobs ~
      Consistency.ofJobs (q.jobs.map (·.name)) [] q.jobs := by
  obtain ⟨jobs, hperm, hjobs⟩ := h.jobs
  calc Consistency.ofJobs (p.jobs.map (·.name)) [] p.jobs
    _ ~ p.jobs.flatMap (Consistency.ofJob (p.jobs.map (·.name))) ++
          (Consistency.repeats [] (p.jobs.map (·.name))).map .duplicateJobName :=
      Consistency.ofJobs_perm _ [] p.jobs
    _ ~ jobs.flatMap (Consistency.ofJob (p.jobs.map (·.name))) ++
          (Consistency.repeats [] (q.jobs.map (·.name))).map .duplicateJobName :=
      .append (hperm.flatMap_right _) (.map _ (Consistency.repeats_perm h.names_perm))
    _ ~ q.jobs.flatMap (Consistency.ofJob (q.jobs.map (·.name))) ++ _ :=
      .append_right _ (Consistency.flatMap_ofJob_perm h.names_perm hjobs)
    _ ~ Consistency.ofJobs (q.jobs.map (·.name)) [] q.jobs :=
      (Consistency.ofJobs_perm _ [] q.jobs).symm

end Pipeline.Reordered

/-- Pipelines that declare the same things in another order have the same violations. -/
theorem Pipeline.violations_perm {p q : Pipeline} (h : p.Reordered q) :
    p.violations ~ q.violations := by
  have htriggers : p.triggers = q.triggers := by rw [h.rest]
  rw [Pipeline.violations, Pipeline.violations, htriggers]
  exact .append (.append_left _ (Consistency.ofSecrets_perm_of_perm h.secrets)) h.ofJobs_perm

/-- Two jobs of one name, one of which needs itself and a job that is missing, and which says twice
what its variable is. -/
def Pipeline.tangled : Pipeline where
  secrets := [{ key := "TOKEN" }, { key := "token" }, { key := "TOKEN" }]
  jobs := [
    { name := "build", needs := ["test", "build", "lint"]
      steps := [{ id := "make" }, { id := "" }, { id := "make" }, { id := "" }] },
    { name := "test", envVars := [{ key := "CI", value := "0" }, { key := "CI", value := "1" }] },
    { name := "build" }]

/-- The same in another order. -/
def Pipeline.retangled : Pipeline where
  secrets := [{ key := "token" }, { key := "TOKEN" }, { key := "TOKEN" }]
  jobs := [
    { name := "test", envVars := [{ key := "CI", value := "1" }, { key := "CI", value := "0" }] },
    { name := "build" },
    { name := "build", needs := ["lint", "test", "build"]
      steps := [{ id := "" }, { id := "make" }, { id := "make" }, { id := "" }] }]

lemma Pipeline.reordered_tangled : tangled.Reordered retangled where
  secrets := by decide
  jobs := by
    refine ⟨[tangled.jobs[1], tangled.jobs[2], tangled.jobs[0]], by decide, ?_⟩
    refine .cons ?_ (.cons ?_ (.cons ?_ .nil)) <;> exact ⟨by decide, by decide, by decide, rfl⟩
  rest := rfl

/-- The violations of the two are told in another order. -/
theorem Pipeline.violations_perm_tangled : tangled.Reordered retangled ∧
    tangled.violations ~ retangled.violations ∧ tangled.violations ≠ retangled.violations :=
  ⟨reordered_tangled, violations_perm reordered_tangled, by decide⟩

end Pipework
