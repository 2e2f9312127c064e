import Pipework.Proofs.Json.Reading
import Pipework.Proofs.Pipeline.Record

/-!
# Pipelines read from their own text

Every pipeline and every record is read back from the text that it was written as, with the axes of
its matrices in the order in which they were declared (`Record.rereads`).
-/

namespace Pipework

open Json (Codec)
open Json.Codec (Refills)

/-! ## Fields with perhaps no value -/

/-- A field that is absent is not read, and one that is there is read as its value. -/
lemma refills_optional {σ α : Type} {c : Codec α} {depth : Nat} {name : String}
    {get : σ → Option α} {set : Option α → σ → σ} {fields : List (Codec.Field σ)} {x s s' : σ}
    (h : ∀ y, c.Rereads depth y) (hnull : ∀ y, c.encode y ≠ .null)
    (hnone : set none s = s) (hrest : Refills depth x fields (set (get x) s) s') :
    Refills depth x (optionalField name c get set :: fields) s s' := by
  cases hx : get x with
  | none =>
    rw [hx, hnone] at hrest
    exact .absent (by simp [optionalField, Codec.Field.omitIf, hx]) rfl hrest
  | some y =>
    have hy : c.option.Rereads depth (get x) := hx ▸ Codec.rereads_some (h y) (hnull y)
    refine .omitIf hy ?_ hrest
    simp [hx]

/-! ## The parts of a pipeline -/

section

variable (depth : Nat)

lemma rereads_platform (p : Platform) : Platform.codec.Rereads depth p :=
  Codec.rereads_choice depth (by cases p <;> decide)

lemma rereads_stepKind (k : StepKind) : StepKind.codec.Rereads depth k :=
  Codec.rereads_choice depth (by cases k <;> decide)

lemma rereads_minutes (n : UInt32) : minutesCodec.Rereads depth n :=
  Codec.rereads_map (Codec.rereads_natural depth n.toNat_lt (by decide)) (UInt32.ofNat_toNat)

lemma rereads_strings (ss : List String) : (Codec.list .string).Rereads (depth + 1) ss :=
  Codec.rereads_list fun s _ => Codec.rereads_string depth s

lemma rereads_trigger (t : Trigger) : Trigger.codec.Rereads (depth + 2) t := by
  refine Codec.rereads_record (by decide) ?_
  refine .field (Codec.rereads_bool _ _) (.field (Codec.rereads_bool _ _)
    (.field (Codec.rereads_bool _ _) (.field (Codec.rereads_string _ _)
    (.field (rereads_strings _ _) (.omitIf (rereads_strings _ _) ?_
    (.field (Codec.rereads_bool _ _) (.nil _)))))))
  simp

lemma rereads_secret (s : Secret) : Secret.codec.Rereads (depth + 1) s :=
  Codec.rereads_record (by decide) <|
    .field (Codec.rereads_string _ _) <| .field (Codec.rereads_string _ _) <| .nil _

lemma rereads_step (s : Step) : Step.codec.Rereads (depth + 1) s :=
  Codec.rereads_record (by decide) <|
    .field (Codec.rereads_string _ _) <| .field (Codec.rereads_string _ _) <|
    .field (rereads_stepKind _ _) <| .field (Codec.rereads_string _ _) <|
    refills_optional (Codec.rereads_string _) (Codec.restores_string 0).ne_null rfl <|
    refills_optional (Codec.rereads_bool _) (Codec.restores_bool 0).ne_null rfl <| .nil _

lemma rereads_envVar (v : EnvVar) : EnvVar.codec.Rereads (depth + 1) v :=
  Codec.rereads_record (by decide) <|
    .field (Codec.rereads_string _ _) <| .field (Codec.rereads_string _ _) <| .nil _

/-- The axes of a matrix come back in their own order. -/
lemma rereads_matrix (m : Matrix) : Matrix.codec.Rereads (depth + 2) m := by
  refine Codec.rereads_table (fun axis _ => rereads_strings depth axis.2) m.nodup ?_
  exact Matrix.ext_axes (Matrix.axes_foldl_insert Matrix.empty m.nodup)

lemma rereads_strategy (s : Strategy) : Strategy.codec.Rereads (depth + 3) s :=
  Codec.rereads_record (by decide) <|
    refills_optional (rereads_matrix _) (restores_matrix 0).ne_null rfl <|
    refills_optional (Codec.rereads_bool _) (Codec.restores_bool 0).ne_null rfl <| .nil _

lemma rereads_job (j : Job) : Job.codec.Rereads (depth + 4) j :=
  Codec.rereads_record (by decide) <|
    .field (Codec.rereads_string _ _) <| .field (Codec.rereads_string _ _) <|
    .field (Codec.rereads_string _ _) <|
    refills_optional (Codec.rereads_string _) (Codec.restores_string 0).ne_null rfl <|
    .field (Codec.rereads_list fun s _ => rereads_step _ s) <|
    .field (Codec.rereads_bool _ _) <|
    .field (Codec.rereads_list fun v _ => rereads_envVar _ v) <|
    .field (rereads_strings _ _) <|
    refills_optional (rereads_minutes _) (restores_minutes 0).ne_null rfl <|
    refills_optional (rereads_strategy _) (restores_strategy 0).ne_null rfl <| .nil _

/-- Every record is read back from its text, axes in their order. -/
theorem Record.rereads (r : Record) : Record.codec.Rereads (depth + 6) r :=
  Codec.rereads_record (by decide) <|
    .field (rereads_platform _ _) <| .field (Codec.rereads_list fun j _ => rereads_job _ j) <|
    .field (rereads_trigger _ _) <| .field (Codec.rereads_list fun s _ => rereads_secret _ s) <|
    refills_optional (Codec.rereads_string _) (Codec.restores_string 0).ne_null rfl <| .nil _

end

end Pipework
