import Pipework.Proofs.Session.InPlace

/-!
# Exporting a session and importing it again

Importing what a session exports always succeeds, whatever calls led to it, and gives the session of
the same pipeline with the axes of its matrices in the order of their names
(`importJson_toRecord`).  So it changes nothing exactly where the axes stood in that order already.
-/

namespace Pipework

/-! ## Axes that stand in the order of their names -/

/-- The axes of every matrix are in the order of their names. -/
def Pipeline.AxesOrdered (p : Pipeline) : Prop :=
  ∀ j ∈ p.jobs, ∀ s ∈ j.strategy, ∀ m ∈ s.matrix, Named.Ordered m.axes

lemma Matrix.sortAxes_eq_self_iff {m : Matrix} : m.sortAxes = m ↔ Named.Ordered m.axes := by
  constructor
  · intro h
    rw [← h]
    exact Named.ordered_collect m.axes
  · intro h
    exact Matrix.ext_axes h.collect_eq

lemma Strategy.sortAxes_eq_self_iff {s : Strategy} :
    s.sortAxes = s ↔ ∀ m ∈ s.matrix, Named.Ordered m.axes := by
  obtain ⟨matrix, failFast⟩ := s
  cases matrix with
  | none => simp [Strategy.sortAxes]
  | some m => simp [Strategy.sortAxes, Matrix.sortAxes_eq_self_iff]

lemma Job.sortAxes_eq_self_iff {j : Job} :
    j.sortAxes = j ↔ ∀ s ∈ j.strategy, ∀ m ∈ s.matrix, Named.Ordered m.axes := by
  have hstrategy : j.sortAxes = j ↔ j.strategy.map Strategy.sortAxes = j.strategy :=
    ⟨fun h => congrArg Job.strategy h, fun h => by rw [Job.sortAxes, h]⟩
  rw [hstrategy]
  cases j.strategy with
  | none => simp
  | some s => simpa using Strategy.sortAxes_eq_self_iff

theorem Pipeline.sortAxes_eq_self_iff {p : Pipeline} : p.sortAxes = p ↔ p.AxesOrdered := by
  have hjobs : p.sortAxes = p ↔ p.jobs.map Job.sortAxes = p.jobs :=
    ⟨fun h => congrArg Pipeline.jobs h, fun h => by rw [Pipeline.sortAxes, h]⟩
  rw [hjobs, Pipeline.AxesOrdered]
  induction p.jobs with
  | nil => simp
  | cons j rest ih => simp [ih, Job.sortAxes_eq_self_iff]

/-! ## The exported text -/

namespace Session

/-- Which pipelines a registry can write depends on nothing but their platform. -/
lemma exists_generate {r : Registry} {p p' : Pipeline} {g : Generation}
    (h : r.generate p = .ok g) (hplatform : p'.platform = p.platform) :
    ∃ g', r.generate p' = .ok g' := by
  cases he : r.forPlatform p.platform with
  | error e => simp [Registry.generate, he] at h
  | ok e => exact ⟨_, by rw [Registry.generate, hplatform, he]; rfl⟩

/-- An up-to-date session takes over the pipeline it exports, with the axes of its matrices
sorted. -/
lemma Current.perform_exported {s : Session} (hs : s.Current) :
    ∃ g, s.registry.generate s.pipeline.sortAxes = .ok g ∧
      s.perform (.importJson s.toRecord.toJsonText) =
        (.ok g, { s with pipeline := s.pipeline.sortAxes, generation := g }) := by
  have hplatform : s.pipeline.sortAxes.platform = s.pipeline.platform := rfl
  obtain ⟨g, hg⟩ := exists_generate hs hplatform
  have hrequested : s.requested (.importJson s.toRecord.toJsonText) = .ok s.pipeline.sortAxes := by
    rw [requested, Record.ofJsonText_toJsonText]
    rfl
  refine ⟨g, hg, ?_⟩
  rw [perform_eq, hrequested]
  simp only [hg]

/-- In every session that is reached, importing the exported text succeeds and sorts the axes of
all matrices; it leaves the pipeline and its text as they are exactly if the axes were declared in
the order of their names. -/
theorem importJson_toRecord {r : Registry} {p : Pipeline} {s : Session} (hs : start r p = .ok s)
    (calls : List Call) :
    ∃ g t, (s.after calls).perform (.importJson (s.after calls).toRecord.toJsonText) = (.ok g, t) ∧
      t.generation = g ∧ t.pipeline = (s.after calls).pipeline.sortAxes ∧
      (t.pipeline = (s.after calls).pipeline ∧
          t.generation.yaml = (s.after calls).generation.yaml ↔
        (s.after calls).pipeline.AxesOrdered) := by
  have hcurrent : (s.after calls).Current := ((start_eq_ok_iff.1 hs).2.2.after calls).2
  obtain ⟨g, hg, himport⟩ := hcurrent.perform_exported
  refine ⟨g, _, himport, rfl, rfl, fun h => Pipeline.sortAxes_eq_self_iff.1 h.1, fun h => ?_⟩
  have hsame : (s.after calls).pipeline.sortAxes = (s.after calls).pipeline :=
    Pipeline.sortAxes_eq_self_iff.2 h
  rw [hsame, hcurrent] at hg
  exact ⟨hsame, by rw [Except.ok.inj hg]⟩

/-- The matrix of a job is edited, and an import fails, before the session is exported. -/
theorem importJson_toRecord_edited :
    ∃ s, start (.standard .merged) {} = .ok s ∧
      let t := s.after [.replace { jobs := [Job.named "test"] },
        .update fun p => { p with jobs := p.jobs.map (·.withAxis "os" ["linux"]) },
        .importJson "["]
      ∃ g t', t.perform (.importJson t.toRecord.toJsonText) = (.ok g, t') ∧ t'.generation = g ∧
        t'.pipeline = t.pipeline.sortAxes ∧
        (t'.pipeline = t.pipeline ∧ t'.generation.yaml = t.generation.yaml ↔
          t.pipeline.AxesOrdered) := by
  obtain ⟨s, hs⟩ : ∃ s, start (.standard .merged) {} = .ok s := ⟨_, rfl⟩
  exact ⟨s, hs, importJson_toRecord hs _⟩

end Session

end Pipework
