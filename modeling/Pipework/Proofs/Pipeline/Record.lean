import Mathlib.Data.List.Forall2
import Pipework.Pipeline.Record
import Pipework.Proofs.Pipeline.Codec

/-!
# Records read back

The text of a record describes the record it was written from (`Record.ofJsonText_toJsonText`):
every field comes back, absent fields come back absent, and only the axes of matrices change their
order.  Reading lays the value over the default record first; `Record.merge_defaults` says that a
record that was written replaces all of it.

`Record.Same` is equality up to the order of axes, where two matrices are compared as maps from the
name of an axis to its values.
-/

namespace Pipework

/-! ## Equality up to the order of axes -/

/-- Two matrices have the same values under the same names. -/
def Matrix.Same (m m' : Matrix) : Prop :=
  ∀ name, Named.get? name m.axes = Named.get? name m'.axes

/-- Two strategies with the same matrix and the same reaction to failures. -/
structure Strategy.Same (s s' : Strategy) : Prop where
  matrix : Option.Rel Matrix.Same s.matrix s'.matrix
  failFast : s.failFast = s'.failFast

/-- Two jobs with the same strategy that are equal in every other field. -/
structure Job.Same (j j' : Job) : Prop where
  strategy : Option.Rel Strategy.Same j.strategy j'.strategy
  others : { j with strategy := none } = { j' with strategy := none }

/-- Two records with the same jobs in the same order that are equal in every other field. -/
structure Record.Same (r r' : Record) : Prop where
  platform : r.pipeline.platform = r'.pipeline.platform
  triggers : r.pipeline.triggers = r'.pipeline.triggers
  secrets : r.pipeline.secrets = r'.pipeline.secrets
  jobs : List.Forall₂ Job.Same r.pipeline.jobs r'.pipeline.jobs
  yamlOutput : r.yamlOutput = r'.yamlOutput

lemma Matrix.sortAxes_same (m : Matrix) : m.sortAxes.Same m := fun name => m.get?_sortAxes name

lemma Strategy.sortAxes_same (s : Strategy) : s.sortAxes.Same s where
  matrix := by
    cases h : s.matrix with
    | none => simp [Strategy.sortAxes, h]
    | some m => simpa [Strategy.sortAxes, h] using Option.Rel.some m.sortAxes_same
  failFast := rfl

lemma Job.sortAxes_same (j : Job) : j.sortAxes.Same j where
  strategy := by
    cases h : j.strategy with
    | none => simp [Job.sortAxes, h]
    | some s => simpa [Job.sortAxes, h] using Option.Rel.some s.sortAxes_same
  others := rfl

/-! ## Reading a record that was written -/

namespace Record

open Json (Codec)
open Json.Codec (field)

/-- The record with the axes of its matrices in the order of their names. -/
def sortAxes (r : Record) : Record :=
  { r with pipeline := r.pipeline.sortAxes }

lemma sortAxes_same (r : Record) : r.sortAxes.Same r where
  platform := rfl
  triggers := rfl
  secrets := rfl
  jobs := by
    rw [sortAxes, Pipeline.sortAxes, List.forall₂_map_left_iff]
    exact List.forall₂_same.2 fun j _ => j.sortAxes_same
  yamlOutput := rfl

lemma codec_restores : codec.Restores 6 sortAxes := by
  refine Codec.restores_record (by decide) ?_ ?_ fun r => ?_
  · simp [optionalField, Codec.Field.apart_field]
  · simp only [List.forall_mem_cons]
    exact ⟨(restores_platform _).keeps, (Codec.restores_list (restores_job _)).keeps,
      (restores_trigger _).keeps, (Codec.restores_list (restores_secret _)).keeps,
      keeps_optionalField (Codec.restores_string _), by simp⟩
  · simp [(restores_platform 0).restore, (Codec.restores_list (restores_job 0)).restore,
      (restores_trigger 0).restore, (Codec.restores_list (restores_secret 0)).restore,
      restore_optionalField (Codec.restores_string 0), sortAxes, Pipeline.sortAxes]

/-- The events of a pipeline replace the default ones. -/
lemma merge_trigger (t : Trigger) :
    Json.merge (Trigger.codec.encode {}).sorted (Trigger.codec.encode t).sorted =
      (Trigger.codec.encode t).sorted := by
  refine Codec.merge_record (by decide) ?_
  simp only [List.forall_mem_cons]
  refine ⟨?_, ?_, ?_, ?_, ?_, Codec.Field.covers_of_write_eq_none rfl, ?_, by simp⟩
  all_goals refine Codec.Field.covers_field ?_ fun fields => ?_ <;>
    simp [Codec.bool, Codec.string, Codec.list]

/-- A record that was written replaces all of the default record. -/
theorem merge_defaults (r : Record) :
    Json.merge defaults (codec.encode r).sorted = (codec.encode r).sorted := by
  refine Codec.merge_record (by decide) ?_
  simp only [List.forall_mem_cons]
  refine ⟨?_, ?_, fun b hb => ⟨_, rfl, ?_⟩, ?_, Codec.Field.covers_of_write_eq_none rfl, by simp⟩
  · exact Codec.Field.covers_field (by simp [Platform.codec, Codec.choice])
      (by simp [Platform.codec, Codec.choice])
  · exact Codec.Field.covers_field (by simp [Codec.list]) (by simp [Codec.list])
  · obtain rfl : Trigger.codec.encode {} = b := Option.some.inj hb
    exact merge_trigger r.pipeline.triggers
  · exact Codec.Field.covers_field (by simp [Codec.list]) (by simp [Codec.list])

/-- The text of a record describes that record, with its axes in the order of their names. -/
theorem ofJsonText_toJsonText (r : Record) : ofJsonText r.toJsonText = .ok r.sortAxes := by
  have hparse : Json.parse r.toJsonText = .ok (codec.encode r).sorted := by
    refine Json.parse_pretty (codec_restores.lossless r) ?_
    exact Nat.lt_of_le_of_lt (codec_restores.height_le r) (by decide)
  have hdecode : codec.ofJson (defaults.merge (codec.encode r).sorted) = .ok r.sortAxes := by
    rw [merge_defaults, Codec.ofJson, codec_restores.decode_sorted]
  obtain ⟨fields, hfields⟩ : ∃ fields, (codec.encode r).sorted = .object fields := ⟨_, rfl⟩
  rw [hfields] at hparse hdecode
  simp only [ofJsonText, hparse, ofJson, hdecode, Except.mapError]

/-- Every record survives its text: reading succeeds, and gives a record equal to the one that was
written but for the order of axes. -/
theorem ofJsonText_toJsonText_same (r : Record) :
    ∃ r', ofJsonText r.toJsonText = .ok r' ∧ r'.Same r :=
  ⟨r.sortAxes, ofJsonText_toJsonText r, r.sortAxes_same⟩

end Record

end Pipework
