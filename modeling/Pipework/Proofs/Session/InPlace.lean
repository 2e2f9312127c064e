import Pipework.Generation
import Pipework.Proofs.Pipeline.Record

/-!
# Sessions changed in place

A session is reached from its start by calls (`Session.after`), each of which is answered or
refused, and what a call has assigned by the time it fails stays assigned.  `perform_eq` says what a
call does: it takes over the pipeline it asks for together with the generation of that pipeline, or
assigns nothing.

In every session that is reached the generation is that of the pipeline, and a call on it either
takes over the pipeline that was asked for or, for one of the two reasons in `Refused`, leaves the
session as it was (`generate_after`).
-/

namespace Pipework.Session

/-! ## Calls -/

/-- What can be asked of a session. -/
inductive Call where
  | update (edit : Pipeline → Pipeline)
  | replace (p : Pipeline)
  | importJson (text : String)

/-- What a call computes. -/
def InPlace.ofCall : Call → InPlace ImportError Generation
  | .update edit => (update edit).adapt ImportError.format
  | .replace p => (replace p).adapt ImportError.format
  | .importJson text => importJson text

/-- The answer to a call on a session, with the session behind it. -/
def perform (s : Session) (c : Call) : Except ImportError Generation × Session :=
  (InPlace.ofCall c).run.run s

/-- The session behind calls one after the other, each answered or refused. -/
def after (s : Session) (calls : List Call) : Session :=
  calls.foldl (fun s c => (s.perform c).2) s

/-- The pipeline that a call asks for. -/
def requested (s : Session) : Call → Except RecordError Pipeline
  | .update edit => .ok (edit s.pipeline)
  | .replace p => .ok p
  | .importJson text => (Record.ofJsonText text).map (·.pipeline)

/-- Why a call is refused: its text is no record, or nothing writes for the platform it asks for. -/
inductive Refused (s : Session) (c : Call) : ImportError → Prop where
  | unreadable {e : RecordError} (h : s.requested c = .error e) : Refused s c (.record e)
  | unwritten {p : Pipeline} {e : UnknownFormat} (h : s.requested c = .ok p)
    (hp : s.registry.forPlatform p.platform = .error e) : Refused s c (.format e)

/-- The generation is the one of the pipeline. -/
def Current (s : Session) : Prop := s.registry.generate s.pipeline = .ok s.generation

/-! ## What a call does -/

variable {s t : Session} {c : Call} {calls : List Call}

/-- A computation behind one that fails or gives a value at once. -/
lemma run_ofExcept_bind {ε α β : Type} (x : Except ε α) (f : α → InPlace ε β) (s : Session) :
    (MonadExcept.ofExcept x >>= f).run.run s =
      match x with
      | .ok a => (f a).run.run s
      | .error e => (.error e, s) := by
  cases x with
  | ok a => rfl
  | error e => rfl

/-- Errors are renamed in the answer only. -/
lemma run_adapt {ε ε' α : Type} (f : ε → ε') (x : InPlace ε α) (s : Session) :
    (ExceptT.adapt f x).run.run s = ((x.run.run s).1.mapError f, (x.run.run s).2) := rfl

/-- Replacing in place assigns both the pipeline and its generation, or nothing. -/
lemma run_replace (s : Session) (p : Pipeline) :
    (InPlace.replace p).run.run s =
      match s.registry.generate p with
      | .ok g => (.ok g, { s with pipeline := p, generation := g })
      | .error e => (.error e, s) := by
  have hrun : (InPlace.replace p).run.run s =
      (MonadExcept.ofExcept (s.registry.generate p) >>= fun g => do
        modify fun s => { s with pipeline := p }
        modify fun s => { s with generation := g }
        return g : InPlace UnknownFormat Generation).run.run s := rfl
  rw [hrun, run_ofExcept_bind]
  cases s.registry.generate p with
  | ok g => rfl
  | error e => rfl

/-- A call assigns the pipeline it asks for and the generation of that pipeline, or nothing. -/
lemma perform_eq (s : Session) (c : Call) :
    s.perform c =
      match s.requested c with
      | .error e => (.error (.record e), s)
      | .ok p =>
        match s.registry.generate p with
        | .error e => (.error (.format e), s)
        | .ok g => (.ok g, { s with pipeline := p, generation := g }) := by
  have hadapt : ∀ p, (ExceptT.adapt ImportError.format (InPlace.replace p)).run.run s =
      match s.registry.generate p with
      | .error e => (.error (.format e), s)
      | .ok g => (.ok g, { s with pipeline := p, generation := g }) := by
    intro p
    rw [run_adapt, run_replace]
    cases s.registry.generate p with
    | ok g => rfl
    | error e => rfl
  cases c with
  | update edit => exact hadapt (edit s.pipeline)
  | replace p => exact hadapt p
  | importJson text =>
    show (InPlace.importJson text).run.run s = _
    rw [InPlace.importJson, run_ofExcept_bind, requested]
    cases Record.ofJsonText text with
    | error e => rfl
    | ok r => exact hadapt r.pipeline

/-! ## What is reached -/

lemma start_eq_ok_iff {r : Registry} {p : Pipeline} {s : Session} :
    start r p = .ok s ↔ s.registry = r ∧ s.pipeline = p ∧ s.Current := by
  obtain ⟨registry, pipeline, generation⟩ := s
  rw [start, Current]
  constructor
  · intro h
    cases hg : r.generate p with
    | error e => simp [hg, Except.map] at h
    | ok g =>
      obtain ⟨rfl, rfl, rfl⟩ : r = registry ∧ p = pipeline ∧ g = generation := by
        simpa [hg] using h
      exact ⟨rfl, rfl, hg⟩
  · rintro ⟨rfl, rfl, hg⟩
    simp only at hg
    simp [hg]

/-- A call that is refused has a reason, and assigns nothing. -/
lemma perform_error {e : ImportError} (h : s.perform c = (.error e, t)) :
    t = s ∧ s.Refused c e := by
  rw [perform_eq] at h
  cases hp : s.requested c with
  | error e' =>
    obtain ⟨rfl, rfl⟩ : ImportError.record e' = e ∧ s = t := by simpa [hp] using h
    exact ⟨rfl, .unreadable hp⟩
  | ok p =>
    cases hg : s.registry.generate p with
    | ok g => simp [hp, hg] at h
    | error e' =>
      obtain ⟨rfl, rfl⟩ : ImportError.format e' = e ∧ s = t := by simpa [hp, hg] using h
      refine ⟨rfl, .unwritten hp ?_⟩
      cases he : s.registry.forPlatform p.platform with
      | error e₁ =>
        obtain rfl : e₁ = e' := by simpa [Registry.generate, he] using hg
        rfl
      | ok e₁ => simp [Registry.generate, he] at hg

/-- A call that is answered takes over the pipeline it asks for. -/
lemma perform_ok {g : Generation} (h : s.perform c = (.ok g, t)) :
    s.requested c = .ok t.pipeline ∧ t.generation = g := by
  rw [perform_eq] at h
  cases hp : s.requested c with
  | error e => simp [hp] at h
  | ok p =>
    cases hg : s.registry.generate p with
    | error e => simp [hp, hg] at h
    | ok g' =>
      obtain ⟨rfl, rfl⟩ : g' = g ∧ { s with pipeline := p, generation := g' } = t := by
        simpa [hp, hg] using h
      exact ⟨rfl, rfl⟩

/-- Every call leaves the generation up to date, whether it is answered or refused. -/
lemma Current.perform (hs : s.Current) (c : Call) :
    (s.perform c).2.registry = s.registry ∧ (s.perform c).2.Current := by
  rw [perform_eq]
  cases s.requested c with
  | error e => exact ⟨rfl, hs⟩
  | ok p =>
    dsimp only
    cases hg : s.registry.generate p with
    | error e => exact ⟨rfl, hs⟩
    | ok g => exact ⟨rfl, hg⟩

lemma Current.after (hs : s.Current) (calls : List Call) :
    (s.after calls).registry = s.registry ∧ (s.after calls).Current := by
  induction calls generalizing s with
  | nil => exact ⟨rfl, hs⟩
  | cons c rest ih =>
    obtain ⟨hregistry, hcurrent⟩ := hs.perform c
    obtain ⟨hregistry', hcurrent'⟩ := ih hcurrent
    exact ⟨hregistry'.trans hregistry, hcurrent'⟩

/-- In every session that is reached the generation is that of the pipeline.  A call on it takes
over the pipeline it asks for, or is refused for a reason and leaves the session as it was. -/
theorem generate_after {r : Registry} {p : Pipeline} (hs : start r p = .ok s) (calls : List Call) :
    r.generate (s.after calls).pipeline = .ok (s.after calls).generation ∧
      (∀ c g t, (s.after calls).perform c = (.ok g, t) →
        (s.after calls).requested c = .ok t.pipeline ∧ t.generation = g) ∧
      ∀ c e t, (s.after calls).perform c = (.error e, t) →
        t = s.after calls ∧ (s.after calls).Refused c e := by
  obtain ⟨rfl, -, hstart⟩ := start_eq_ok_iff.1 hs
  obtain ⟨hregistry, hcurrent⟩ := hstart.after calls
  refine ⟨?_, fun c g t h => perform_ok h, fun c e t h => perform_error h⟩
  rw [← hregistry]
  exact hcurrent

/-- An emitter of one line per job. -/
def listing : Emitter where
  platform := .github
  outputPath := ".github/workflows/ci.yml"
  emit p := "on:\n  push:\njobs:\n" ++ String.join (p.jobs.map fun job => "  " ++ job.name ++ ":\n")

/-- With this emitter only: a job is added, a change of the platform is refused, and then a broken
record is, which leaves everything as it was. -/
theorem generate_after_refusals :
    ∃ s, start (.ofList [listing]) {} = .ok s ∧
      let t := s.after [.update fun p => { p with jobs := [Job.named "test"] },
        .update fun p => { p with platform := .gitlab, jobs := [] }]
      (Registry.ofList [listing]).generate t.pipeline = .ok t.generation ∧
        ∃ e, (t.perform (.importJson "[")).1 = .error e ∧ (t.perform (.importJson "[")).2 = t := by
  obtain ⟨s, hs⟩ : ∃ s, start (.ofList [listing]) {} = .ok s := ⟨_, rfl⟩
  obtain ⟨e, he⟩ : ∃ e, Record.ofJsonText "[" = .error e := ⟨_, rfl⟩
  have hreached := generate_after hs [.update fun p => { p with jobs := [Job.named "test"] },
    .update fun p => { p with platform := .gitlab, jobs := [] }]
  refine ⟨s, hs, hreached.1, .record e, ?_, ?_⟩
  · rw [perform_eq, requested, he]
    rfl
  · refine (hreached.2.2 (.importJson "[") (.record e) _ ?_).1
    rw [perform_eq, requested, he]
    rfl

end Pipework.Session
