import Pipework.Proofs.Json.Defaults

/-!
# Values at paths of names

A path of names leads from an object into the objects below it (`at?`).  What stands at a path in a
value with another laid over it is, as under a single name, what the upper value has there laid over
what the lower one has there (`at?_merge`), provided that the path goes through objects of the upper
one; elsewhere that one replaces all that is below.  No path is new (`at?_isSome_of_merge`), and to
lay the same value over once more changes nothing (`merge_merge`), because a value laid over itself
is itself (`merge_self`).

The objects are those whose names are in order (`sorted`), as they are in every value that was read.
-/

namespace Pipework.Json

/-- The value at a path of names. -/
def at? : Json → List String → Option Json
  | v, [] => some v
  | v, name :: path => (v.field? name).bind (at? · path)

/-- Whatever stands on the way along a path is an object. -/
def Opens (v : Json) (path : List String) : Prop :=
  ∀ front w, front <+: path → front ≠ path → v.at? front = some w → ∃ fields, w = .object fields

/-- What holds of an object if it holds of its values, and of everything that is no object, holds of
all values. -/
theorem object_induction {P : Json → Prop}
    (object : ∀ fields, (∀ name v, Named.get? name fields = some v → P v) → P (.object fields))
    (other : ∀ v, (∀ fields, v ≠ .object fields) → P v) : ∀ v, P v
  | .object fields => object fields fun name v hv =>
      have hmem := Named.mem_of_get?_eq_some hv
      have hsize := List.sizeOf_lt_of_mem hmem
      object_induction object other v
  | .null => other _ (by simp)
  | .bool _ => other _ (by simp)
  | .number _ => other _ (by simp)
  | .string _ => other _ (by simp)
  | .list _ => other _ (by simp)
termination_by v => sizeOf v
decreasing_by
  simp only [Prod.mk.sizeOf_spec, Json.object.sizeOf_spec] at hsize ⊢
  omega

section

variable {base overlay v w : Json} {fields : List (String × Json)} {name : String}
  {path : List String}

/-! ## Steps of a path -/

lemma field?_eq_none (h : ∀ fields, v ≠ .object fields) (name : String) : v.field? name = none := by
  cases v with
  | object fields => exact absurd rfl (h fields)
  | _ => rfl

lemma opens_cons_iff :
    v.Opens (name :: path) ↔
      (∃ fields, v = .object fields) ∧ ∀ w, v.field? name = some w → w.Opens path := by
  constructor
  · intro h
    refine ⟨h [] v List.nil_prefix (by simp) rfl, fun w hw front u hfront hne hu => ?_⟩
    refine h (name :: front) u (List.cons_prefix_cons.2 ⟨rfl, hfront⟩) (by simpa using hne) ?_
    rw [at?, hw]
    exact hu
  · rintro ⟨hobject, hbelow⟩ front u hfront hne hu
    cases front with
    | nil => exact Option.some.inj hu ▸ hobject
    | cons n front =>
      obtain ⟨rfl, hprefix⟩ := List.cons_prefix_cons.1 hfront
      obtain ⟨w, hw, hu⟩ := Option.bind_eq_some_iff.1 hu
      exact hbelow w hw front u hprefix (by simpa using hne) hu

lemma mergeAt_none_left (above : Option Json) : mergeAt none above = above := by
  cases above <;> rfl

/-- An object is laid over anything name by name. -/
lemma field?_merge (hnodup : (fields.map (·.1)).Nodup) (base : Json) (name : String) :
    (merge base (.object fields)).field? name =
      mergeAt (base.field? name) (Named.get? name fields) := by
  by_cases hbase : ∃ lower, base = .object lower
  · obtain ⟨lower, rfl⟩ := hbase
    exact get?_mergeFields hnodup lower name
  · rw [not_exists] at hbase
    rw [merge_of_not_object hbase (by simp), field?_eq_none hbase, mergeAt_none_left]
    rfl

/-! ## Paths -/

/-- What stands at a path through objects is laid over what stands there below. -/
theorem at?_merge (hsorted : overlay.sorted = overlay) (h : overlay.Opens path) (base : Json) :
    (merge base overlay).at? path = mergeAt (base.at? path) (overlay.at? path) := by
  induction path generalizing base overlay with
  | nil => rfl
  | cons name path ih =>
    obtain ⟨⟨fields, rfl⟩, hbelow⟩ := opens_cons_iff.1 h
    rw [at?, field?_merge (ordered_of_sorted hsorted).nodup, at?, at?]
    show (mergeAt (base.field? name) (Named.get? name fields)).bind (at? · path) =
      mergeAt ((base.field? name).bind (at? · path)) ((Named.get? name fields).bind (at? · path))
    cases hv : Named.get? name fields with
    | none => cases base.field? name <;> rfl
    | some v =>
      cases base.field? name with
      | none => exact (mergeAt_none_left (v.at? path)).symm
      | some b => exact ih (sorted_of_get? hsorted hv) (hbelow v hv) b

/-- A path in a merged value is one of the two that were merged. -/
lemma at?_isSome_of_merge (hsorted : overlay.sorted = overlay)
    (h : ((merge base overlay).at? path).isSome = true) :
    (base.at? path).isSome = true ∨ (overlay.at? path).isSome = true := by
  induction path generalizing base overlay with
  | nil => exact .inl rfl
  | cons name path ih =>
    cases overlay with
    | null => exact .inl h
    | object fields =>
      rw [at?, field?_merge (ordered_of_sorted hsorted).nodup] at h
      rw [at?, at?]
      show _ ∨ ((Named.get? name fields).bind (at? · path)).isSome = true
      cases hv : Named.get? name fields with
      | none =>
        rw [hv] at h
        cases hb : base.field? name with
        | none => simp [hb, mergeAt] at h
        | some b => exact .inl (by simpa [hb, mergeAt] using h)
      | some v =>
        rw [hv] at h
        cases hb : base.field? name with
        | none => exact .inr (by simpa [hb, mergeAt] using h)
        | some b => exact ih (sorted_of_get? hsorted hv) (by simpa [hb, mergeAt] using h)
    | _ => exact .inr h

/-! ## The same value once more -/

/-- A value laid over itself is itself. -/
theorem merge_self (h : v.sorted = v) : merge v v = v := by
  induction v using object_induction with
  | object fields ih =>
    have hfields := ordered_of_sorted h
    rw [merge, (mergeFields_ordered fields hfields).ext hfields fun name => ?_]
    rw [get?_mergeFields hfields.nodup]
    cases hv : Named.get? name fields with
    | none => rfl
    | some v => rw [mergeAt, ih name v hv (sorted_of_get? h hv)]
  | other v hobject =>
    cases v with
    | object fields => exact absurd rfl (hobject fields)
    | _ => rfl

/-- To lay a value over once more changes nothing. -/
theorem merge_merge (hbase : base.sorted = base) (hoverlay : overlay.sorted = overlay) :
    merge (merge base overlay) overlay = merge base overlay := by
  induction overlay using object_induction generalizing base with
  | object fields ih =>
    have hnodup := (ordered_of_sorted hoverlay).nodup
    by_cases hobject : ∃ lower, base = .object lower
    · obtain ⟨lower, rfl⟩ := hobject
      have hmerged := mergeFields_ordered fields (ordered_of_sorted hbase)
      rw [merge, merge, (mergeFields_ordered fields hmerged).ext hmerged fun name => ?_]
      rw [get?_mergeFields hnodup, get?_mergeFields hnodup]
      cases hv : Named.get? name fields with
      | none => cases Named.get? name lower <;> rfl
      | some v =>
        have hv' := sorted_of_get? hoverlay hv
        cases hb : Named.get? name lower with
        | none => rw [mergeAt, mergeAt, merge_self hv']
        | some b => rw [mergeAt, mergeAt, ih name v hv (sorted_of_get? hbase hb) hv']
    · rw [not_exists] at hobject
      rw [merge_of_not_object hobject (by simp), merge_self hoverlay]
  | other v hobject =>
    cases v with
    | object fields => exact absurd rfl (hobject fields)
    | _ => rfl

/-- To lay a value over another a second time changes nothing.  At a path through objects of the
upper value stands what that value has there, unless it is `null` or an object; what the lower value
has there, where the upper one has nothing or `null`.  And there is no path that neither of the two
has. -/
theorem merge_paths (hbase : base.sorted = base) (hoverlay : overlay.sorted = overlay) :
    merge (merge base overlay) overlay = merge base overlay ∧
      (∀ path, overlay.Opens path →
        (∀ v, overlay.at? path = some v → v ≠ .null → (∀ fields, v ≠ .object fields) →
          (merge base overlay).at? path = some v) ∧
        (∀ v, base.at? path = some v → overlay.at? path = none →
          (merge base overlay).at? path = some v) ∧
        ∀ v, base.at? path = some v → overlay.at? path = some .null →
          (merge base overlay).at? path = some v) ∧
      ∀ path, ((merge base overlay).at? path).isSome = true →
        (base.at? path).isSome = true ∨ (overlay.at? path).isSome = true := by
  refine ⟨merge_merge hbase hoverlay, fun path hopens => ?_,
    fun path => at?_isSome_of_merge hoverlay⟩
  rw [at?_merge hoverlay hopens base]
  refine ⟨fun v hv hnull hobject => ?_, fun v hv hnone => ?_, fun v hv hnull => ?_⟩
  · rw [hv]
    cases base.at? path with
    | none => rfl
    | some b => rw [mergeAt, merge_eq_right hnull hobject]
  · rw [hv, hnone, mergeAt]
  · rw [hv, hnull, mergeAt, merge]

/-- Events over other ones: a value replaces, `null` and silence keep, and an object in the place of
a list brings in what it has, even `null`. -/
theorem merge_paths_triggers :
    let base : Json := .object [("jobs", .list []), ("triggers", .object
      [("branches", .list [.string "main"]), ("cron", .string "0 4 * * *"), ("push", .bool true)])]
    let overlay : Json := .object [("jobs", .object [("build", .null)]),
      ("triggers", .object [("cron", .null), ("push", .bool false)])]
    base.sorted = base ∧ overlay.sorted = overlay ∧
      merge (merge base overlay) overlay = merge base overlay ∧
      overlay.Opens ["triggers", "push"] ∧
      (merge base overlay).at? ["triggers", "push"] = some (.bool false) ∧
      (merge base overlay).at? ["triggers", "branches"] = some (.list [.string "main"]) ∧
      (merge base overlay).at? ["triggers", "cron"] = some (.string "0 4 * * *") ∧
      (merge base overlay).at? ["jobs", "build"] = some .null ∧
      (overlay.at? ["jobs", "build"]).isSome = true := by
  intro base overlay
  have hbase : base.sorted = base := rfl
  have hoverlay : overlay.sorted = overlay := rfl
  obtain ⟨htwice, hpaths, hnew⟩ := merge_paths hbase hoverlay
  have hopens (name : String) : overlay.Opens ["triggers", name] := by
    refine opens_cons_iff.2 ⟨⟨_, rfl⟩, fun w hw => opens_cons_iff.2 ⟨?_, fun _ _ => ?_⟩⟩
    · exact ⟨_, (Option.some.inj hw).symm⟩
    · intro front _ hfront hne
      exact absurd (List.prefix_nil.1 hfront) hne
  obtain ⟨hpush, -, -⟩ := hpaths _ (hopens "push")
  obtain ⟨-, hbranches, -⟩ := hpaths _ (hopens "branches")
  obtain ⟨-, -, hcron⟩ := hpaths _ (hopens "cron")
  refine ⟨hbase, hoverlay, htwice, hopens "push", hpush _ rfl (by simp) (by simp),
    hbranches _ rfl rfl, hcron _ rfl rfl, rfl, ?_⟩
  exact (hnew ["jobs", "build"] rfl).resolve_left (by decide)

end

end Pipework.Json
