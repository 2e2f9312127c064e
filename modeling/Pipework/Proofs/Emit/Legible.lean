import Pipework.Proofs.Emit.Content
import Pipework.Proofs.Text.Parts
import Pipework.Proofs.Yaml.Literal

/-!
# Pipelines that can be written in full

What a pipeline must satisfy for the files written for it to say all that it holds
(`Pipeline.Legible`): its strings have no characters that a document cannot show, its keys are not
longer than a key on one line may be, and no two keys of one object are the same.  Secrets are named
as variables of an environment are.
-/

namespace Pipework

open Layout Yaml

/-! ## Strings -/

/-- A string whose characters a document can show. -/
def IsText (s : String) : Prop := Writable s.toList

instance (s : String) : Decidable (IsText s) := inferInstanceAs (Decidable (Writable _))

/-- A string that can be written as a key on one line. -/
structure IsKey (s : String) : Prop where
  isText : IsText s
  short : (scalar s.toList).length < Scan.keyLimit

instance (s : String) : Decidable (IsKey s) :=
  decidable_of_iff (IsText s ∧ (scalar s.toList).length < Scan.keyLimit)
    ⟨fun h => ⟨h.1, h.2⟩, fun h => ⟨h.1, h.2⟩⟩

/-- An identifier of upper-case letters, digits and underscores that is no longer than a key on one
line may be. -/
structure IsVariable (s : String) : Prop where
  ne_nil : s.toList ≠ []
  upper : ∀ c ∈ s.toList, c.isUpper ∨ c.isDigit ∨ c = '_'
  head : ∀ c ∈ s.toList.head?, c.isDigit = false
  short : s.toList.length < Scan.keyLimit

instance (s : String) : Decidable (IsVariable s) :=
  decidable_of_iff (s.toList ≠ [] ∧ s.toList.all (fun c => c.isUpper || c.isDigit || c == '_') ∧
      s.toList.head?.all (fun c => !c.isDigit) ∧ s.toList.length < Scan.keyLimit) <| by
    constructor <;> rintro ⟨hne, hupper, hhead, hshort⟩ <;> refine ⟨hne, ?_, ?_, hshort⟩
    all_goals first
      | simpa [or_assoc] using hupper
      | simpa [Option.all_eq_true] using hhead

lemma IsVariable.isWord {s : String} (h : IsVariable s) : ∀ c ∈ s.toList, isWord c = true := by
  intro c hc
  rcases h.upper c hc with hupper | hdigit | rfl
  · simp [Yaml.isWord, Char.isAlphanum, isAlpha_iff, hupper]
  · simp [Yaml.isWord, Char.isAlphanum, hdigit]
  · rfl

/-! ## Pipelines -/

/-- Triggers that can be written. -/
structure Trigger.Legible (t : Trigger) : Prop where
  branches : ∀ branch ∈ t.branches, IsText branch
  paths : ∀ path ∈ t.paths, IsText path
  cron : IsText t.cron

/-- A step that can be written. -/
structure Step.Legible (s : Step) : Prop where
  name : IsText s.name
  content : IsText s.content
  condition : ∀ c ∈ s.condition, IsText c

/-- A job that can be written. -/
structure Job.Legible (job : Job) : Prop where
  name : IsKey job.name
  runsOn : IsText job.runsOn
  image : ∀ image ∈ job.dockerImage, IsText image
  needs : ∀ name ∈ job.needs, IsText name
  envKeys : ∀ v ∈ job.envVars, IsKey v.key
  envValues : ∀ v ∈ job.envVars, IsText v.value
  nodup_envKeys : (job.envVars.map (·.key)).Nodup
  axisNames : ∀ axis ∈ job.axes, IsKey axis.1
  axisValues : ∀ axis ∈ job.axes, ∀ value ∈ axis.2, IsText value
  steps : ∀ s ∈ job.steps, s.Legible

/-- A pipeline that can be written. -/
structure Pipeline.Legible (p : Pipeline) : Prop where
  triggers : p.triggers.Legible
  secrets : ∀ s ∈ p.secrets, IsVariable s.key
  nodup_secrets : (p.secrets.map (·.key)).Nodup
  jobs : ∀ job ∈ p.jobs, job.Legible
  nodup_jobs : (p.jobs.map (·.name)).Nodup

/-- The lines of a script are written as they stand. -/
lemma Step.Legible.flat_lines {s : Step} (h : s.Legible) :
    ∀ l ∈ Text.lines s.content.toList, Flat l := by
  intro l hl c hc
  obtain ⟨hmem, hfeed⟩ := Text.mem_lines hl hc
  exact (h.content c hmem).resolve_left hfeed

/-- They are the parts between the line feeds, but for empty ones at the end. -/
lemma Step.Legible.exists_splitOn_eq {s : Step} (h : s.Legible) :
    ∃ j, s.content.toList.splitOn '\n' = Text.lines s.content.toList ++ List.replicate j [] := by
  refine Literal.exists_splitOn_eq_lines fun hreturn => ?_
  rcases h.content '\r' hreturn with heq | hflat
  · exact absurd heq (by decide)
  · exact absurd hflat (by decide)

lemma Trigger.Legible.writable_cron {t : Trigger} (h : t.Legible) :
    Writable (trimmed t.cron.toList) := by
  rw [← trim_eq_trimmed]
  exact fun c hc => h.cron c (Text.mem_of_mem_trim hc)

/-! ## Strategies -/

/-- The axes that are written are those of the job. -/
lemma Job.axes_eq_of_strategy {job : Job} {s : Strategy} (h : job.strategy = some s) :
    job.axes = s.axes := by
  rw [Job.axes, h, Option.bind_some, Strategy.axes]
  cases s.matrix with
  | none => rfl
  | some matrix =>
    refine List.filter_congr fun axis _ => ?_
    obtain ⟨name, values⟩ := axis
    cases values <;> rfl

lemma Job.nodup_axes (job : Job) : (job.axes.map (·.1)).Nodup := by
  unfold Job.axes
  split
  · exact List.nodup_nil
  · rename_i matrix _
    exact matrix.nodup.sublist (List.filter_sublist.map _)

lemma Job.apart_axisFields (job : Job) : Typed.Apart job.axisFields :=
  Typed.apart_map Typed.same_string_of_ne job.nodup_axes

/-! ## Parts that both formats have -/

section

variable {levels : Nat} (level : Nat)

/-- A key in the form that is chosen for it. -/
lemma IsKey.saysFields {name : String} (h : IsKey name) {level : Nat} {text : List Char}
    {lines : List Line} {v : Typed} (hv : SaysValue levels level text lines v) :
    SaysFields levels level (⟨level, scalar name.toList ++ ':' :: text⟩ :: lines)
      [(.string name, v)] := by
  obtain ⟨plain, hwritten, htext⟩ := written_scalar (Writable.quotable h.isText)
  have hkey := Typed.ofScalar?_of_text htext
  rw [String.ofList_toList] at hkey
  exact .entry hwritten (Nat.le_of_lt h.short) hkey hv

/-- The name of a variable is what it is without quotes. -/
lemma IsVariable.ofScalar?_eq {name : String} (h : IsVariable name) :
    Typed.ofScalar? none true name.toList = some (bareKey name) := by
  unfold bareKey
  split_ifs with hNull hTrue hFalse
  · rw [hNull]
    rfl
  · rw [hTrue]
    rfl
  · rw [hFalse]
    rfl
  · have hwords : name.toList ≠ "NULL".toList ∧ name.toList ≠ "TRUE".toList ∧
        name.toList ≠ "FALSE".toList := by
      simp only [ne_eq, String.toList_inj, *, not_false_eq_true, and_self]
    rw [Typed.ofScalar?_of_text fun _ => resolve_upper h.ne_nil h.upper h.head hwords,
      String.ofList_toList]

/-- The name of a variable is a key as it stands. -/
lemma IsVariable.saysFields {name : String} (h : IsVariable name) {level : Nat} {text : List Char}
    {lines : List Line} {v : Typed} (hv : SaysValue levels level text lines v) :
    SaysFields levels level (⟨level, name.toList ++ ':' :: text⟩ :: lines) [(bareKey name, v)] :=
  .entry (.plain (.of_word h.ne_nil h.isWord)) (Nat.le_of_lt h.short) h.ofScalar?_eq hv

/-- The axes of a matrix, each with its values in brackets. -/
lemma Job.Legible.saysFields_axes {job : Job} (h : job.Legible) :
    SaysFields (levels + 2) level
      (job.axes.map fun axis => listEntry level (scalar axis.1.toList) (axis.2.map String.toList))
      job.axisFields :=
  .map fun axis haxis => (h.axisNames axis haxis).saysFields (.flowList (h.axisValues axis haxis))

/-- The variables of a job below the key of its environment. -/
lemma Job.Legible.saysValue_variables {job : Job} (h : job.Legible) (hne : job.envVars ≠ []) :
    SaysValue (levels + 3) level []
      (job.envVars.map fun v => entry (level + 1) (scalar v.key.toList) (scalar v.value.toList))
      (.object job.variableFields) := by
  have hvars : SaysFields (levels + 2) (level + 1)
      (job.envVars.map fun v => entry (level + 1) (scalar v.key.toList) (scalar v.value.toList))
      job.variableFields :=
    .map fun v hv => (h.envKeys v hv).saysFields (.string (h.envValues v hv))
  exact .object hvars (by simpa [Job.variableFields] using hne)
    (Typed.apart_map Typed.same_string_of_ne h.nodup_envKeys)

end

/-! ## An example -/

/-- A pipeline that uses every part of the format: a job whose name and variables need quotes, with
a matrix and a cache, that runs on pushes of branches and tags and every night, and a secret whose
name is no string without them. -/
def Pipeline.nightly : Pipeline where
  triggers := { tags := true, cron := " 0 3 * * * ", paths := ["src/**"] }
  secrets := [{ key := "API_TOKEN" }, { key := "NULL" }]
  jobs := [{
    name := "build: all"
    steps := [{ name := "Test", content := "cargo test\n", continueOnError := some true }]
    cache := true
    envVars := [{ key := "yes", value := "no" }]
    timeout := some 30
    strategy := some {
      matrix := some (Matrix.empty.insert "os" ["linux"])
      failFast := some false } }]

lemma Pipeline.legible_nightly : nightly.Legible where
  triggers := ⟨by decide, by decide, by decide⟩
  secrets := by decide
  nodup_secrets := by decide
  jobs job hjob := by
    obtain rfl := List.mem_singleton.1 hjob
    constructor
    case name => decide
    case runsOn => decide
    case image => decide
    case needs => decide
    case envKeys => decide
    case envValues => decide
    case nodup_envKeys => decide
    case axisNames => decide
    case axisValues => decide
    case steps =>
      intro s hs
      obtain rfl := List.mem_singleton.1 hs
      exact ⟨by decide, by decide, by decide⟩
  nodup_jobs := by decide

end Pipework
