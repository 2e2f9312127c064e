import Pipework.Pipeline.Codec
import Pipework.Proofs.Json.Codec

/-!
# What a text keeps of a pipeline

Every part of a pipeline is restored from its JSON form, with one exception: the axes of a matrix
come back in the order of their names.  `sortAxes` is that form of a matrix, and of all that has
matrices in it.  It has the same values under the same names (`Matrix.get?_sortAxes`).
-/

namespace Pipework

open Json (Codec)
open Json.Codec (field)

/-! ## Axes in the order of their names -/

/-- The matrix with its axes in the order of their names. -/
def Matrix.sortAxes (m : Matrix) : Matrix :=
  ⟨Named.collect m.axes, (Named.ordered_collect m.axes).nodup⟩

/-- The strategy with the axes of its matrix in the order of their names. -/
def Strategy.sortAxes (s : Strategy) : Strategy :=
  { s with matrix := s.matrix.map Matrix.sortAxes }

/-- The job with the axes of its matrix in the order of their names. -/
def Job.sortAxes (j : Job) : Job :=
  { j with strategy := j.strategy.map Strategy.sortAxes }

/-- The pipeline with the axes of its matrices in the order of their names. -/
def Pipeline.sortAxes (p : Pipeline) : Pipeline :=
  { p with jobs := p.jobs.map Job.sortAxes }

/-- Reordering axes keeps the values of each. -/
@[simp]
theorem Matrix.get?_sortAxes (name : String) (m : Matrix) :
    Named.get? name m.sortAxes.axes = Named.get? name m.axes :=
  Named.get?_collect m.nodup name

/-! ## Fields with perhaps no value -/

section Field

variable {σ α : Type} {name : String} {c : Codec α} {depth : Nat} {norm : α → α}
  {get : σ → Option α} {set : Option α → σ → σ}

lemma option_decode_sorted (h : c.Restores depth norm) (x : α) :
    c.option.decode (c.encode x).sorted = .ok (some (norm x)) := by
  have hnull := Codec.sorted_ne_null (h.ne_null x)
  have hdecode := h.decode_sorted x
  cases hv : (c.encode x).sorted with
  | null => exact absurd hv hnull
  | _ => simp [Codec.option, ← hv, hdecode]

lemma keeps_optionalField (h : c.Restores depth norm) :
    (optionalField name c get set).Keeps depth where
  free := rfl
  lossless {x v} hw := by
    simp only [optionalField, Codec.Field.omitIf, field, Option.ite_none_left_eq_some] at hw
    obtain ⟨y, hy⟩ := Option.ne_none_iff_exists'.1 (Option.isNone_iff_eq_none.not.1 hw.1)
    rw [hy, Option.some.injEq] at hw
    exact hw.2 ▸ h.lossless y
  height_le {x v} hw := by
    simp only [optionalField, Codec.Field.omitIf, field, Option.ite_none_left_eq_some] at hw
    obtain ⟨y, hy⟩ := Option.ne_none_iff_exists'.1 (Option.isNone_iff_eq_none.not.1 hw.1)
    rw [hy, Option.some.injEq] at hw
    exact hw.2 ▸ h.height_le y

/-- A field that is absent is restored where the record started without it. -/
lemma restore_optionalField (h : c.Restores depth norm) {x s : σ} (hnone : set none s = s) :
    (optionalField name c get set).restore x s = .ok (set ((get x).map norm) s) := by
  cases hx : get x with
  | none => simp [Codec.Field.restore, optionalField, Codec.Field.omitIf, hx, hnone]
  | some y =>
    have hencode : c.option.encode (some y) = c.encode y := rfl
    simp [Codec.Field.restore, optionalField, Codec.Field.omitIf, field, hx, hencode,
      option_decode_sorted h]

end Field

/-! ## The parts of a pipeline -/

section

variable (depth : Nat)

lemma restores_platform : Platform.codec.Restores depth id :=
  Codec.restores_choice depth fun p => by cases p <;> decide

lemma restores_stepKind : StepKind.codec.Restores depth id :=
  Codec.restores_choice depth fun k => by cases k <;> decide

lemma restores_minutes : minutesCodec.Restores depth id where
  lossless n := .natural (Nat.lt_trans n.toNat_lt (by decide))
  height_le n := by simp [minutesCodec, Codec.map, Codec.natural, Json.height]
  ne_null n := by simp [minutesCodec, Codec.map, Codec.natural]
  decode_sorted n := by
    have hlt : n.toNat < UInt32.size := n.toNat_lt
    simp [minutesCodec, Codec.map, Codec.natural, Json.sorted, Codec.natural?, hlt]

/-- The strings of a list come back as they are. -/
lemma restores_strings : (Codec.list .string).Restores (depth + 1) id := by
  simpa using Codec.restores_list (Codec.restores_string depth)

lemma restores_trigger : Trigger.codec.Restores (depth + 2) id := by
  refine Codec.restores_record (by decide) ?_ ?_ fun t => ?_
  · simp [Codec.Field.apart_field]
  · simp only [List.forall_mem_cons]
    exact ⟨(Codec.restores_bool _).keeps, (Codec.restores_bool _).keeps,
      (Codec.restores_bool _).keeps, (Codec.restores_string _).keeps, (restores_strings _).keeps,
      (restores_strings _).keeps.omitIf _, (Codec.restores_bool _).keeps, by simp⟩
  · simp [(Codec.restores_bool 0).restore, (Codec.restores_string 0).restore,
      (restores_strings 0).restore, (restores_strings 0).restore_omitIf]

lemma restores_secret : Secret.codec.Restores (depth + 1) id := by
  refine Codec.restores_record (by decide) ?_ ?_ fun s => ?_
  · simp [Codec.Field.apart_field]
  · simp only [List.forall_mem_cons]
    exact ⟨(Codec.restores_string _).keeps, (Codec.restores_string _).keeps, by simp⟩
  · simp [(Codec.restores_string 0).restore]

lemma restores_step : Step.codec.Restores (depth + 1) id := by
  refine Codec.restores_record (by decide) ?_ ?_ fun s => ?_
  · simp [optionalField, Codec.Field.apart_field]
  · simp only [List.forall_mem_cons]
    exact ⟨(Codec.restores_string _).keeps, (Codec.restores_string _).keeps,
      (restores_stepKind _).keeps, (Codec.restores_string _).keeps,
      keeps_optionalField (Codec.restores_string _), keeps_optionalField (Codec.restores_bool _),
      by simp⟩
  · simp [(Codec.restores_string 0).restore, (restores_stepKind 0).restore,
      restore_optionalField (Codec.restores_string 0),
      restore_optionalField (Codec.restores_bool 0)]

lemma restores_envVar : EnvVar.codec.Restores (depth + 1) id := by
  refine Codec.restores_record (by decide) ?_ ?_ fun v => ?_
  · simp [Codec.Field.apart_field]
  · simp only [List.forall_mem_cons]
    exact ⟨(Codec.restores_string _).keeps, (Codec.restores_string _).keeps, by simp⟩
  · simp [(Codec.restores_string 0).restore]

/-! ### Matrices -/

lemma Matrix.setAxis_of_notMem {name : String} {values : List String}
    {axes : List (String × List String)} (h : name ∉ axes.map (·.1)) :
    setAxis name values axes = axes ++ [(name, values)] := by
  induction axes with
  | nil => rfl
  | cons axis rest ih =>
    rw [List.map_cons, List.mem_cons, not_or] at h
    simp [setAxis, Ne.symm h.1, ih h.2]

/-- Axes with new names are put behind those that are there. -/
lemma Matrix.axes_foldl_insert (m : Matrix) {axes : List (String × List String)}
    (h : ((m.axes ++ axes).map (·.1)).Nodup) :
    (axes.foldl (fun m axis => m.insert axis.1 axis.2) m).axes = m.axes ++ axes := by
  induction axes generalizing m with
  | nil => simp
  | cons axis rest ih =>
    have hnew : axis.1 ∉ m.axes.map (·.1) := by
      rw [List.map_append, List.nodup_append] at h
      exact fun hm => h.2.2 _ hm _ (by simp) rfl
    have hinsert : (m.insert axis.1 axis.2).axes = m.axes ++ [axis] := setAxis_of_notMem hnew
    rw [List.foldl_cons, ih, hinsert, List.append_assoc, List.singleton_append]
    rwa [hinsert, List.append_assoc, List.singleton_append]

/-- A matrix is its axes. -/
lemma Matrix.ext_axes {m m' : Matrix} (h : m.axes = m'.axes) : m = m' := by
  obtain ⟨axes, _⟩ := m
  obtain ⟨axes', _⟩ := m'
  obtain rfl : axes = axes' := h
  rfl

lemma restores_matrix : Matrix.codec.Restores (depth + 2) Matrix.sortAxes := by
  have hsort : (fun m : Matrix => (Named.collect m.axes).foldl
      (fun m axis => m.insert axis.1 (id axis.2)) Matrix.empty) = Matrix.sortAxes := by
    funext m
    exact Matrix.ext_axes
      (Matrix.axes_foldl_insert Matrix.empty (Named.ordered_collect m.axes).nodup)
  rw [← hsort]
  exact Codec.restores_table (restores_strings depth) fun m => m.nodup

lemma restores_strategy : Strategy.codec.Restores (depth + 3) Strategy.sortAxes := by
  refine Codec.restores_record (by decide) ?_ ?_ fun s => ?_
  · simp [optionalField, Codec.Field.apart_field]
  · simp only [List.forall_mem_cons]
    exact ⟨keeps_optionalField (restores_matrix _), keeps_optionalField (Codec.restores_bool _),
      by simp⟩
  · simp [restore_optionalField (restores_matrix 0), restore_optionalField (Codec.restores_bool 0),
      Strategy.sortAxes]

/-! ### Jobs and pipelines -/

lemma restores_job : Job.codec.Restores (depth + 4) Job.sortAxes := by
  refine Codec.restores_record (by decide) ?_ ?_ fun j => ?_
  · simp [optionalField, Codec.Field.apart_field]
  · simp only [List.forall_mem_cons]
    exact ⟨(Codec.restores_string _).keeps, (Codec.restores_string _).keeps,
      (Codec.restores_string _).keeps, keeps_optionalField (Codec.restores_string _),
      (Codec.restores_list (restores_step _)).keeps, (Codec.restores_bool _).keeps,
      (Codec.restores_list (restores_envVar _)).keeps, (restores_strings _).keeps,
      keeps_optionalField (restores_minutes _), keeps_optionalField (restores_strategy _),
      by simp⟩
  · simp [(Codec.restores_bool 0).restore, (Codec.restores_string 0).restore,
      (restores_strings 0).restore, (Codec.restores_list (restores_step 0)).restore,
      (Codec.restores_list (restores_envVar 0)).restore,
      restore_optionalField (Codec.restores_string 0), restore_optionalField (restores_minutes 0),
      restore_optionalField (restores_strategy 0), Job.sortAxes]

end

end Pipework
