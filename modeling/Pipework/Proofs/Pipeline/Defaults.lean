import Pipework.Pipeline.Record
import Pipework.Proofs.Json.Defaults
import Pipework.Proofs.Pipeline.Codec

/-!
# What a record leaves out

A value is read over the default record: it is laid over what is written of that record, and the
result is decoded.  A field that it leaves out thus has its default twice over, since a decoder
starts from the default record too.  `ofJson_eq_codec_ofJson` says that the two come to the same,
for values with no `null` where the default record has something.

`null` is passed over where something lies below.  `ofJson_withoutNulls` says that it may as well be
left out, with one exception.  An empty filter on paths is not written, so that in the default
record there is nothing below the paths, and `null` reaches the decoder of a list.

The values here are sorted, as all that are read (`Json.sorted_of_parse`, `Yaml.sorted_of_read`).
-/

namespace Pipework

open Json (Codec)
open Json.Codec (Lenient Idle Refused field below)

/-! ## Triggers -/

/-- What is used of the fields of a trigger. -/
structure TriggerFields (fields : List (Codec.Field Trigger)) : Prop where
  codec_eq : Trigger.codec = .record (typeName "Trigger" 7) {} fields
  lenient : Lenient {} fields
  /-- By default a field has no object. -/
  not_object : ∀ f ∈ fields, ∀ v, f.write {} = some v → ∀ entries, v ≠ .object entries
  /-- Only the paths are not written by default. -/
  eq_paths : ∀ f ∈ fields, f.write {} = none → f.name = "paths"
  paths : ∃ f ∈ fields, f.name = "paths" ∧ f.write {} = none ∧
    f.decode .null = .error (.wrongType .null "a sequence")

theorem exists_triggerFields : ∃ fields, TriggerFields fields := by
  refine ⟨_, { codec_eq := rfl, lenient := ?_, not_object := ?_, eq_paths := ?_, paths := ?_ }⟩
  · constructor
    · decide
    · simp [Codec.Field.apart_field]
    · simp [field, Codec.Field.omitIf]
    · simp [(Codec.restores_bool 0).restore, (Codec.restores_string 0).restore,
        (restores_strings 0).restore, (restores_strings 0).restore_omitIf]
    · simp only [List.forall_mem_cons]
      refine ⟨?_, ?_, ?_, ?_, ?_, Codec.Field.settled_omitIf (fun _ _ => rfl) List.isEmpty, ?_,
        by simp⟩
      all_goals exact Codec.Field.settled_field fun _ _ => rfl
  · simp [field, Codec.Field.omitIf, Codec.bool, Codec.string, Codec.list]
  · simp [field, Codec.Field.omitIf]
  · simp [field, Codec.Field.omitIf, Codec.list, Codec.mistaken, Json.found, Except.map]

namespace TriggerFields

variable {fields : List (Codec.Field Trigger)} (h : TriggerFields fields)

include h

lemma below_paths : below fields {} "paths" = none := by
  obtain ⟨f, hf, hname, hwrite, -⟩ := h.paths
  rw [← hname, Codec.below_name h.lenient.names hf, hwrite]
  rfl

/-- Where nothing lies below, only `null` for the paths is not ignored. -/
lemma idle_null {n : String} (hn : n ≠ "paths") (hbelow : below fields {} n = none) :
    Idle fields {} (n, .null) := by
  rcases h.lenient.below_eq_none hbelow with hunknown | ⟨f, hf, rfl, hwrite⟩
  · exact Codec.idle_of_unknown hunknown
  · exact absurd (h.eq_paths f hf hwrite) hn

lemma refused_paths :
    Refused fields (.wrongType .null "a sequence") ("paths", .null) := by
  obtain ⟨f, hf, hname, -, hdecode⟩ := h.paths
  intro t
  rw [← hname, Codec.putEntry_name h.lenient.names hf, hdecode]
  rfl

end TriggerFields

namespace Trigger

/-- What is heard of a trigger: entries that are `null` say nothing, but for the paths `null` is not
passed over. -/
def heard : Json → Json
  | .object entries => .object (entries.filter fun entry => !entry.2.isNull || entry.1 == "paths")
  | v => v

variable {entries : List (String × Json)}

lemma heard_of_ne_null (h : ∀ entry ∈ entries, entry.2 ≠ .null) :
    heard (.object entries) = .object entries := by
  rw [heard, List.filter_eq_self.2]
  intro entry hentry
  simp [h entry hentry]

/-- Unless the paths are `null`, all `null` is passed over. -/
lemma heard_eq_withoutNulls (hentries : Named.Ordered entries)
    (hpaths : Named.get? "paths" entries ≠ some .null) :
    heard (.object entries) = (Json.object entries).withoutNulls := by
  rw [heard, Json.withoutNulls, Json.object.injEq]
  apply List.filter_congr
  intro entry hentry
  by_cases hname : entry.1 = "paths"
  · have hget := Named.get?_eq_some_of_mem hentries.nodup hentry
    have hnull : entry.2 ≠ .null := by
      intro hnull
      rw [hname, hnull] at hget
      exact hpaths hget
    simp [hnull]
  · simp [hname]

/-- A trigger laid over the default one is what is heard of it. -/
lemma decode_merge (hentries : Named.Ordered entries) :
    codec.decode (Json.merge (codec.encode {}).sorted (.object entries)) =
      codec.decode (heard (.object entries)) := by
  obtain ⟨fields, h⟩ := exists_triggerFields
  rw [h.codec_eq]
  apply h.lenient.decode_merge _ hentries (hentries.filter _)
  · intro n v hv
    rw [Named.get?_filter hentries.nodup, Option.filter_eq_some_iff] at hv
    obtain ⟨hv, hheard⟩ := hv
    refine ⟨v, ?_, fun s => rfl⟩
    rw [hv]
    by_cases hnull : v = .null
    · obtain rfl : n = "paths" := by simpa [hnull, Json.isNull] using hheard
      rw [h.below_paths]
      rfl
    · apply Json.mergeAt_of_not_object _ hnull
      intro b hb
      obtain ⟨f, hf, -, w, hw, rfl⟩ := Codec.exists_of_below hb
      exact Json.sorted_ne_object (h.not_object f hf w hw)
  · intro n v hnone hv
    rw [Named.get?_filter hentries.nodup, hv] at hnone
    have hpassed : v = .null ∧ n ≠ "paths" := by simpa [Option.filter_some] using hnone
    exact ⟨hpassed.1, h.idle_null hpassed.2⟩

/-- A trigger with `null` for its paths is refused. -/
lemma exists_error_of_paths (hpaths : Named.get? "paths" entries = some .null) :
    ∃ cause, codec.decode (heard (.object entries)) = .error cause := by
  obtain ⟨fields, h⟩ := exists_triggerFields
  rw [h.codec_eq, heard, h.lenient.decode_object]
  apply Codec.exists_error_of_refused _ h.refused_paths
  exact List.mem_filter.2 ⟨Named.mem_of_get?_eq_some hpaths, rfl⟩

/-- If a trigger is refused for `null` as its paths only, it is for that cause. -/
lemma decode_heard_eq_error (hpaths : Named.get? "paths" entries = some .null) {t : Trigger}
    (hrest : codec.decode (Json.object entries).withoutNulls = .ok t) :
    codec.decode (heard (.object entries)) = .error (.wrongType .null "a sequence") := by
  obtain ⟨fields, h⟩ := exists_triggerFields
  rw [h.codec_eq, Json.withoutNulls, h.lenient.decode_object] at hrest
  rw [h.codec_eq, heard, h.lenient.decode_object]
  apply Codec.foldlM_eq_error _ _ h.refused_paths
  · intro entry hentry cause hcause
    rw [List.mem_filter] at hentry
    by_cases hnull : entry.2 = .null
    · have hname : entry.1 = "paths" := by simpa [hnull, Json.isNull] using hentry.2
      obtain rfl : entry = ("paths", .null) := Prod.ext hname hnull
      exact Except.error.inj ((hcause {}).symm.trans (h.refused_paths {}))
    · -- the others are entries of the trigger without `null`, where none is refused
      have hentryRest : entry ∈ entries.filter (!·.2.isNull) :=
        List.mem_filter.2 ⟨hentry.1, by simpa using hnull⟩
      exact absurd hcause (Codec.not_refused_of_foldlM hrest entry hentryRest)
  · exact List.mem_filter.2 ⟨Named.mem_of_get?_eq_some hpaths, rfl⟩

/-- A field of a trigger that is `null` has its default. -/
lemma field?_encode (hentries : Named.Ordered entries) {t : Trigger}
    (ht : codec.decode (heard (.object entries)) = .ok t) {n : String}
    (hn : Named.get? n entries = some .null) :
    (codec.encode t).field? n = (codec.encode {}).field? n := by
  have hpaths : n ≠ "paths" := by
    rintro rfl
    obtain ⟨cause, hcause⟩ := exists_error_of_paths hn
    rw [hcause] at ht
    cases ht
  obtain ⟨fields, h⟩ := exists_triggerFields
  rw [h.codec_eq, heard, h.lenient.decode_object] at ht
  rw [h.codec_eq]
  refine h.lenient.field?_encode_of_notMem _ (h.idle_null hpaths) ?_ ht
  rw [← Named.get?_eq_none_iff, Named.get?_filter hentries.nodup, hn]
  simp [Option.filter_some, Json.isNull, hpaths]

end Trigger

/-! ## Records -/

/-- What is used of the fields of a record. -/
structure RecordFields (fields : List (Codec.Field Record)) : Prop where
  codec_eq : Record.codec = .record (typeName "PipelineRecord" 5) {} fields
  lenient : Lenient {} fields
  /-- By default only the triggers are an object. -/
  not_object : ∀ f ∈ fields, f.name ≠ "triggers" →
    ∀ v, f.write {} = some v → ∀ entries, v ≠ .object entries
  triggers : ∃ f ∈ fields, f.name = "triggers" ∧ f.write {} = some (Trigger.codec.encode {}) ∧
    ∀ v, f.decode v = (Trigger.codec.decode v).map fun x r => { r with pipeline.triggers := x }
  /-- A field that is not written by default is absent where `null` is put. -/
  null : ∀ f ∈ fields, f.write {} = none → Idle fields {} (f.name, .null)
  written : ∀ f ∈ fields, f.write {} ≠ none →
    f.name ∈ ["platform", "jobs", "triggers", "secrets"]

theorem exists_recordFields : ∃ fields, RecordFields fields := by
  refine ⟨_, { codec_eq := rfl, lenient := ?_, not_object := ?_, triggers := ?_, null := ?_,
               written := ?_ }⟩
  · constructor
    · decide
    · simp [optionalField, Codec.Field.apart_field]
    · simp [field, optionalField, Codec.Field.omitIf]
    · simp [(restores_platform 0).restore, (Codec.restores_list (restores_job 0)).restore,
        (restores_trigger 0).restore, (Codec.restores_list (restores_secret 0)).restore,
        restore_optionalField (Codec.restores_string 0)]
    · simp only [List.forall_mem_cons]
      refine ⟨?_, ?_, ?_, ?_, Codec.Field.settled_omitIf (fun _ _ => rfl) Option.isNone, by simp⟩
      all_goals exact Codec.Field.settled_field fun _ _ => rfl
  · simp [field, optionalField, Codec.Field.omitIf, Platform.codec, Codec.choice, Codec.list]
  · simp [field, optionalField, Codec.Field.omitIf]
  · simp [field, optionalField, Codec.Field.omitIf, Idle, Codec.putEntry, Codec.option, Except.map]
  · simp [field, optionalField, Codec.Field.omitIf]

namespace RecordFields

variable {fields : List (Codec.Field Record)} (h : RecordFields fields)

include h

/-- Where nothing lies below, `null` is ignored. -/
lemma idle_null {n : String} (hbelow : below fields {} n = none) : Idle fields {} (n, .null) := by
  rcases h.lenient.below_eq_none hbelow with hunknown | ⟨f, hf, rfl, hwrite⟩
  · exact Codec.idle_of_unknown hunknown
  · exact h.null f hf hwrite

lemma below_eq_none {n : String} (hn : n ∉ ["platform", "jobs", "triggers", "secrets"]) :
    below fields {} n = none := by
  cases hb : below fields {} n with
  | none => rfl
  | some b =>
    obtain ⟨f, hf, rfl, v, hv, -⟩ := Codec.exists_of_below hb
    exact absurd (h.written f hf (by simp [hv])) hn

lemma below_triggers : below fields {} "triggers" = some (Trigger.codec.encode {}).sorted := by
  obtain ⟨f, hf, hname, hwrite, -⟩ := h.triggers
  rw [← hname, Codec.below_name h.lenient.names hf, hwrite]
  rfl

lemma putEntry_triggers (r : Record) (v : Json) :
    Codec.putEntry fields r ("triggers", v) =
      (Trigger.codec.decode v).map fun t => { r with pipeline.triggers := t } := by
  obtain ⟨f, hf, hname, -, hdecode⟩ := h.triggers
  rw [← hname, Codec.putEntry_name h.lenient.names hf, hdecode]
  cases Trigger.codec.decode v <;> rfl

end RecordFields

namespace Record

/-- What a value says: its entries that are not `null`, with `f` of its triggers. -/
def said (f : Json → Json) (v : Json) : Json := v.withoutNulls.mapField "triggers" f

/-- The entries of what an object says. -/
structure Said (f : Json → Json) (given kept : List (String × Json)) : Prop where
  eq : said f (.object given) = .object kept
  ordered : Named.Ordered kept
  get?_eq (n : String) : Named.get? n kept =
    ((Named.get? n given).filter (!·.isNull)).map fun v => if n = "triggers" then f v else v

lemma exists_said (f : Json → Json) {given : List (String × Json)} (hgiven : Named.Ordered given) :
    ∃ kept, Said f given kept := by
  refine ⟨_, rfl, (hgiven.filter _).map fun n v => if n = "triggers" then f v else v, ?_⟩
  intro n
  rw [Named.get?_map_entries fun n v => if n = "triggers" then f v else v,
    Named.get?_filter hgiven.nodup]

namespace Said

variable {f : Json → Json} {given kept : List (String × Json)} (h : Said f given kept) {n : String}

include h

lemma exists_of_get? {v : Json} (hv : Named.get? n kept = some v) :
    ∃ u, Named.get? n given = some u ∧ u ≠ .null ∧ v = if n = "triggers" then f u else u := by
  simp only [h.get?_eq, Option.map_eq_some_iff, Option.filter_eq_some_iff] at hv
  obtain ⟨u, ⟨hu, hnull⟩, rfl⟩ := hv
  exact ⟨u, hu, by simpa using hnull, rfl⟩

/-- Only `null` is not said. -/
lemma eq_null {v : Json} (hnone : Named.get? n kept = none) (hv : Named.get? n given = some v) :
    v = .null := by
  simpa [h.get?_eq, hv, Option.filter_some] using hnone

lemma notMem (hn : Named.get? n given = some .null) : n ∉ kept.map (·.1) := by
  rw [← Named.get?_eq_none_iff, h.get?_eq, hn]
  rfl

lemma mem_triggers {entries : List (String × Json)}
    (htriggers : Named.get? "triggers" given = some (.object entries)) :
    ("triggers", f (.object entries)) ∈ kept := by
  apply Named.mem_of_get?_eq_some
  simp [h.get?_eq, htriggers, Option.filter_some, Json.isNull]

end Said

/-- Triggers laid over the default ones are what is heard of them. -/
lemma decode_triggers {u : Json} (hnull : u ≠ .null) (hsorted : u.sorted = u) :
    Trigger.codec.decode (Json.merge (Trigger.codec.encode {}).sorted u) =
      Trigger.codec.decode (Trigger.heard u) := by
  cases u with
  | null => exact absurd rfl hnull
  | object entries => exact Trigger.decode_merge (Json.ordered_of_sorted hsorted)
  | _ => rfl

/-- A value laid over the default record is what is heard of it. -/
theorem decode_merge {given : List (String × Json)}
    (hsorted : (Json.object given).sorted = .object given) :
    codec.decode (defaults.merge (.object given)) =
      codec.decode (said Trigger.heard (.object given)) := by
  have hgiven := Json.ordered_of_sorted hsorted
  obtain ⟨fields, h⟩ := exists_recordFields
  obtain ⟨kept, hsaid⟩ := exists_said Trigger.heard hgiven
  rw [hsaid.eq, defaults, h.codec_eq]
  apply h.lenient.decode_merge _ hgiven hsaid.ordered
  · intro n v hv
    obtain ⟨u, hu, hnull, rfl⟩ := hsaid.exists_of_get? hv
    rw [hu]
    by_cases hn : n = "triggers"
    · subst hn
      refine ⟨Json.merge (Trigger.codec.encode {}).sorted u, ?_, ?_⟩
      · rw [h.below_triggers]
        rfl
      · intro r
        rw [if_pos rfl, h.putEntry_triggers, h.putEntry_triggers,
          decode_triggers hnull (Json.sorted_of_get? hsorted hu)]
    · refine ⟨u, Json.mergeAt_of_not_object ?_ hnull, fun s => by simp [hn]⟩
      intro b hb
      obtain ⟨f, hf, hname, w, hw, rfl⟩ := Codec.exists_of_below hb
      exact Json.sorted_ne_object (h.not_object f hf (hname ▸ hn) w hw)
  · intro n v hnone hv
    exact ⟨hsaid.eq_null hnone hv, h.idle_null⟩

/-- Reading an object over the default record is decoding what is heard of it. -/
theorem ofJson_object {given : List (String × Json)}
    (hsorted : (Json.object given).sorted = .object given) :
    ofJson (.object given) =
      (codec.ofJson (said Trigger.heard (.object given))).mapError .json := by
  simp only [ofJson, Codec.ofJson, decode_merge hsorted]

/-- Reading an object over the default record is decoding the object, to the same record or the same
error, if none of the fields that the default record has is `null`, nor any entry of the
triggers. -/
theorem ofJson_eq_codec_ofJson {given : List (String × Json)}
    (hsorted : (Json.object given).sorted = .object given)
    (hgiven : ∀ name ∈ ["platform", "jobs", "triggers", "secrets"],
      Named.get? name given ≠ some .null)
    (htriggers : ∀ entries, Named.get? "triggers" given = some (.object entries) →
      ∀ entry ∈ entries, entry.2 ≠ .null) :
    ofJson (.object given) = (codec.ofJson (.object given)).mapError .json := by
  have hordered := Json.ordered_of_sorted hsorted
  obtain ⟨fields, h⟩ := exists_recordFields
  obtain ⟨kept, hsaid⟩ := exists_said Trigger.heard hordered
  have hheard : ∀ v, Named.get? "triggers" given = some v → Trigger.heard v = v := by
    intro v hv
    cases v with
    | object entries => exact Trigger.heard_of_ne_null (htriggers entries hv)
    | _ => rfl
  -- what is not heard of the object is `null` in fields that ignore it
  have hdecode : codec.decode (said Trigger.heard (.object given)) =
      codec.decode (.object given) := by
    rw [hsaid.eq, h.codec_eq, h.lenient.decode_object, h.lenient.decode_object]
    symm
    apply Codec.foldlM_extend h.lenient.apart hsaid.ordered hordered
    · intro n v hv
      obtain ⟨u, hu, -, rfl⟩ := hsaid.exists_of_get? hv
      refine ⟨u, hu, fun r => ?_⟩
      by_cases hn : n = "triggers"
      · subst hn
        rw [if_pos rfl, hheard u hu]
      · rw [if_neg hn]
    · intro n v hnone hv
      obtain rfl := hsaid.eq_null hnone hv
      exact h.idle_null (h.below_eq_none fun hn => hgiven n hn hv)
  rw [ofJson_object hsorted, Codec.ofJson, hdecode, Codec.ofJson]

/-- Triggers given in part, and triggers that are refused. -/
theorem ofJson_eq_codec_ofJson_triggers :
    ofJson (.object [("triggers", .object [("tags", .bool true)]), ("yamlOutput", .null)]) =
      .ok { pipeline := { triggers := { tags := true } } } ∧
    ofJson (.object [("triggers", .object [("cron", .bool true), ("tags", .bool true)])]) =
      .error (.json ⟨.wrongType (.bool true) "a string", none⟩) := by
  constructor
  · exact ofJson_eq_codec_ofJson rfl (by simp [Named.get?]) (by simp [Named.get?])
  · exact ofJson_eq_codec_ofJson rfl (by simp [Named.get?])
      (by simp +contextual [Named.get?, or_imp])

/-! ## Fields that are `null` -/

/-- A value without its entries that are `null`, and without those of its triggers. -/
def withoutNulls (v : Json) : Json := said Json.withoutNulls v

lemma said_congr {f g : Json → Json} {given : List (String × Json)} (hgiven : Named.Ordered given)
    (h : ∀ u, Named.get? "triggers" given = some u → f u = g u) :
    said f (.object given) = said g (.object given) := by
  rw [said, said, Json.withoutNulls, Json.mapField, Json.mapField, Json.object.injEq]
  refine List.map_congr_left fun entry hentry => ?_
  have hget := Named.get?_eq_some_of_mem hgiven.nodup (List.mem_filter.1 hentry).1
  by_cases hn : entry.1 = "triggers"
  · rw [if_pos hn, if_pos hn, h entry.2 (hn ▸ hget)]
  · rw [if_neg hn, if_neg hn]

/-- A value without `null` in it is decoded as it is. -/
lemma ofJson_withoutNulls_object {given : List (String × Json)}
    (hsorted : (Json.object given).sorted = .object given) :
    ofJson (withoutNulls (.object given)) =
      (codec.ofJson (withoutNulls (.object given))).mapError .json := by
  obtain ⟨kept, hsaid⟩ := exists_said Json.withoutNulls (Json.ordered_of_sorted hsorted)
  rw [withoutNulls, hsaid.eq]
  apply ofJson_eq_codec_ofJson (Json.sorted_object hsaid.ordered ?_)
  · intro n _ hn
    obtain ⟨u, -, hnull, hv⟩ := hsaid.exists_of_get? hn
    split at hv
    · exact hnull (Json.withoutNulls_eq_null_iff.1 hv.symm)
    · exact hnull hv.symm
  · intro entries hentries
    obtain ⟨u, -, -, hv⟩ := hsaid.exists_of_get? hentries
    rw [if_pos rfl] at hv
    exact Json.ne_null_of_withoutNulls hv.symm
  · intro n v hv
    obtain ⟨u, hu, -, rfl⟩ := hsaid.exists_of_get? hv
    split
    · exact Json.sorted_withoutNulls (Json.sorted_of_get? hsorted hu)
    · exact Json.sorted_of_get? hsorted hu

/-- What is given for the paths of the triggers. -/
def paths? (v : Json) : Option Json := (v.field? "triggers").bind (Json.field? "paths")

lemma exists_of_triggers {v u : Json} {n : String}
    (h : (v.field? "triggers").bind (Json.field? n) = some u) :
    ∃ given entries, v = .object given ∧ Named.get? "triggers" given = some (.object entries) ∧
      Named.get? n entries = some u := by
  obtain ⟨triggers, htriggers, hu⟩ := Option.bind_eq_some_iff.1 h
  cases v with
  | object given =>
    cases triggers with
    | object entries => exact ⟨given, entries, rfl, htriggers, hu⟩
    | _ => cases hu
  | _ => cases htriggers

/-- Fields that are `null` may as well be left out, if the paths are not `null`. -/
lemma ofJson_withoutNulls_of_paths {v : Json} (hsorted : v.sorted = v)
    (hpaths : paths? v ≠ some .null) : ofJson (withoutNulls v) = ofJson v := by
  cases v with
  | object given =>
    rw [ofJson_withoutNulls_object hsorted, ofJson_object hsorted, withoutNulls]
    rw [said_congr (Json.ordered_of_sorted hsorted)]
    intro u hu
    cases u with
    | object entries =>
      have hentries := Json.ordered_of_sorted (Json.sorted_of_get? hsorted hu)
      have hpaths' : Named.get? "paths" entries ≠ some .null := by
        rw [paths?, Json.field?, hu] at hpaths
        exact hpaths
      exact (Trigger.heard_eq_withoutNulls hentries hpaths').symm
    | _ => rfl
  | _ => rfl

lemma mapError_ofJson_eq_ok {v : Json} {r : Record} :
    (codec.ofJson v).mapError RecordError.json = .ok r ↔ codec.decode v = .ok r := by
  rw [Codec.ofJson]
  cases codec.decode v <;> simp [Except.mapError]

section

variable {given entries : List (String × Json)}
  (hsorted : (Json.object given).sorted = .object given)

include hsorted

/-- A field of the record that is `null` has its default. -/
lemma field?_encode {r : Record} (hr : ofJson (.object given) = .ok r) {n : String}
    (hn : Named.get? n given = some .null) :
    (codec.encode r).field? n = (codec.encode {}).field? n := by
  rw [ofJson_object hsorted, mapError_ofJson_eq_ok] at hr
  obtain ⟨fields, h⟩ := exists_recordFields
  obtain ⟨kept, hsaid⟩ := exists_said Trigger.heard (Json.ordered_of_sorted hsorted)
  rw [hsaid.eq, h.codec_eq, h.lenient.decode_object] at hr
  rw [h.codec_eq]
  exact h.lenient.field?_encode_of_notMem _ h.idle_null (hsaid.notMem hn) hr

variable (htriggers : Named.get? "triggers" given = some (.object entries))

include htriggers

/-- The triggers of a record are those that are said. -/
lemma decode_said_triggers {f : Json → Json} {r : Record}
    (hr : codec.decode (said f (.object given)) = .ok r) :
    Trigger.codec.decode (f (.object entries)) = .ok r.pipeline.triggers := by
  obtain ⟨fields, h⟩ := exists_recordFields
  obtain ⟨kept, hsaid⟩ := exists_said f (Json.ordered_of_sorted hsorted)
  rw [hsaid.eq, h.codec_eq, h.lenient.decode_object] at hr
  obtain ⟨r', hput⟩ := Codec.exists_putEntry_of_mem h.lenient.apart hsaid.ordered.nodup
    (hsaid.mem_triggers htriggers) hr
  rw [h.putEntry_triggers] at hput
  obtain ⟨t, ht, rfl⟩ := map_eq_ok.1 hput
  exact ht

lemma decode_heard_triggers {r : Record} (hr : ofJson (.object given) = .ok r) :
    Trigger.codec.decode (Trigger.heard (.object entries)) = .ok r.pipeline.triggers := by
  rw [ofJson_object hsorted, mapError_ofJson_eq_ok] at hr
  exact decode_said_triggers hsorted htriggers hr

/-- A record with `null` for the paths of its triggers is refused. -/
lemma exists_error_of_paths (hpaths : Named.get? "paths" entries = some .null) :
    ∃ e, ofJson (.object given) = .error e := by
  cases hr : ofJson (.object given) with
  | error e => exact ⟨e, rfl⟩
  | ok r =>
    obtain ⟨cause, hcause⟩ := Trigger.exists_error_of_paths hpaths
    rw [decode_heard_triggers hsorted htriggers hr] at hcause
    cases hcause

/-- If nothing else is wrong with it, the record is refused for that `null`. -/
lemma ofJson_eq_error_of_paths (hpaths : Named.get? "paths" entries = some .null) {r : Record}
    (hrest : ofJson (withoutNulls (.object given)) = .ok r) :
    ofJson (.object given) = .error (.json ⟨.wrongType .null "a sequence", none⟩) := by
  have hgiven := Json.ordered_of_sorted hsorted
  rw [ofJson_withoutNulls_object hsorted, mapError_ofJson_eq_ok] at hrest
  have htrigger := Trigger.decode_heard_eq_error hpaths
    (decode_said_triggers hsorted htriggers hrest)
  obtain ⟨fields, h⟩ := exists_recordFields
  obtain ⟨rest, hsaidRest⟩ := exists_said Json.withoutNulls hgiven
  obtain ⟨kept, hsaid⟩ := exists_said Trigger.heard hgiven
  have hmem := hsaid.mem_triggers htriggers
  have hrefused : Refused fields (.wrongType .null "a sequence")
      ("triggers", Trigger.heard (.object entries)) := by
    intro r
    rw [h.putEntry_triggers, htrigger]
    rfl
  have hdecode : codec.decode (said Trigger.heard (.object given)) =
      .error (.wrongType .null "a sequence") := by
    rw [withoutNulls, hsaidRest.eq, h.codec_eq, h.lenient.decode_object] at hrest
    rw [hsaid.eq, h.codec_eq, h.lenient.decode_object]
    apply Codec.foldlM_eq_error _ hmem hrefused
    intro entry hentry cause hcause
    by_cases hname : entry.1 = "triggers"
    · obtain rfl : entry = ("triggers", Trigger.heard (.object entries)) :=
        List.inj_on_of_nodup_map hsaid.ordered.nodup hentry hmem hname
      exact Except.error.inj ((hcause {}).symm.trans (hrefused {}))
    · -- every other entry is also one of the object without `null`, which makes a record
      have hget := Named.get?_eq_some_of_mem hsaid.ordered.nodup hentry
      have hentryRest : (entry.1, entry.2) ∈ rest := by
        apply Named.mem_of_get?_eq_some
        simpa [hsaid.get?_eq, hsaidRest.get?_eq, hname] using hget
      exact absurd hcause (Codec.not_refused_of_foldlM hrest entry hentryRest)
  rw [ofJson_object hsorted, Codec.ofJson, hdecode]
  rfl

end

/-- A field that is `null` has its default, with one exception.  Leaving out what is `null` does not
change what is read, and the record that is read has in those places what the default record has;
but `null` for the paths of the triggers is refused. -/
theorem ofJson_withoutNulls {v : Json} (hsorted : v.sorted = v) :
    (paths? v ≠ some .null → ofJson (withoutNulls v) = ofJson v) ∧
    (paths? v = some .null → (∃ e, ofJson v = .error e) ∧
      ∀ r, ofJson (withoutNulls v) = .ok r →
        ofJson v = .error (.json ⟨.wrongType .null "a sequence", none⟩)) ∧
    ∀ r, ofJson v = .ok r →
      (∀ n, v.field? n = some .null → (codec.encode r).field? n = (codec.encode {}).field? n) ∧
      ∀ n, (v.field? "triggers").bind (Json.field? n) = some .null →
        (Trigger.codec.encode r.pipeline.triggers).field? n =
          (Trigger.codec.encode {}).field? n := by
  refine ⟨ofJson_withoutNulls_of_paths hsorted, fun hpaths => ?_, fun r hr => ⟨?_, ?_⟩⟩
  · obtain ⟨given, entries, rfl, htriggers, hnull⟩ := exists_of_triggers hpaths
    exact ⟨exists_error_of_paths hsorted htriggers hnull,
      fun r => ofJson_eq_error_of_paths hsorted htriggers hnull⟩
  · intro n hn
    cases v with
    | object given => exact field?_encode hsorted hr hn
    | _ => cases hn
  · intro n hn
    obtain ⟨given, entries, rfl, htriggers, hnull⟩ := exists_of_triggers hn
    have hentries := Json.ordered_of_sorted (Json.sorted_of_get? hsorted htriggers)
    exact Trigger.field?_encode hentries (decode_heard_triggers hsorted htriggers hr) hnull

/-- A schedule that is `null` is the default one, but paths that are `null` are refused. -/
theorem ofJson_withoutNulls_cron :
    ofJson (.object [("triggers", .object [("cron", .null), ("tags", .bool true)])]) =
      .ok { pipeline := { triggers := { tags := true } } } ∧
    (Trigger.codec.encode { tags := true }).field? "cron" =
      (Trigger.codec.encode {}).field? "cron" ∧
    ofJson (.object [("triggers", .object [("cron", .null), ("paths", .null)])]) =
      .error (.json ⟨.wrongType .null "a sequence", none⟩) := by
  have hpaths : paths? (.object [("triggers", .object [("cron", .null), ("tags", .bool true)])]) ≠
      some .null := by simp [paths?, Json.field?, Named.get?]
  obtain ⟨hkept, -, hdefault⟩ := ofJson_withoutNulls
    (show (Json.object [("triggers", .object [("cron", .null), ("tags", .bool true)])]).sorted =
      _ from rfl)
  have hread : ofJson (.object [("triggers", .object [("cron", .null), ("tags", .bool true)])]) =
      .ok { pipeline := { triggers := { tags := true } } } := (hkept hpaths).symm
  refine ⟨hread, ?_, ((ofJson_withoutNulls rfl).2.1 rfl).2 {} rfl⟩
  exact (hdefault _ hread).2 "cron" rfl

end Record

end Pipework
