import Pipework.Json.Merge
import Pipework.Proofs.Named

/-!
# Sorted values

What `Json.sorted` does to the fields of an object, said through look-ups: the fields come out in
the order of their names (`ordered_sortedFields`), and under each name stands the sorted value of
the first field with that name (`get?_sortedFields`).  Where no name stands twice, sorting an object
is collecting its sorted fields one by one (`sortedFields_eq_collect`), which is what a reader does.
An object is sorted if its fields are in order and its values sorted, and only then
(`sorted_object`, `ordered_of_sorted`, `sorted_of_get?`).

`get?_mergeFields` says the same of `Json.merge`: under each name stands what the upper value has
there, laid over what the lower one has.
-/

namespace Pipework.Json

/-! ## Sorting -/

lemma sortedItems_eq_map (items : List Json) : sortedItems items = items.map sorted := by
  induction items with
  | nil => rfl
  | cons item rest ih => rw [sortedItems, ih, List.map_cons]

lemma ordered_sortedFields (fields : List (String × Json)) :
    Named.Ordered (sortedFields fields) := by
  induction fields with
  | nil => exact Named.ordered_nil
  | cons field rest ih => exact ih.insert field.1 field.2.sorted

@[simp]
lemma get?_sortedFields (name : String) (fields : List (String × Json)) :
    Named.get? name (sortedFields fields) = (Named.get? name fields).map sorted := by
  induction fields with
  | nil => rfl
  | cons field rest ih =>
    obtain ⟨n, v⟩ := field
    by_cases h : n = name
    · simp [sortedFields, Named.get?, h]
    · simp [sortedFields, Named.get?, h, ih]

/-- The fields of an object with their values sorted. -/
def sortValues (fields : List (String × Json)) : List (String × Json) :=
  fields.map fun field => (field.1, field.2.sorted)

@[simp]
lemma names_sortValues (fields : List (String × Json)) :
    (sortValues fields).map (·.1) = fields.map (·.1) :=
  Named.names_map _ _

theorem sortedFields_eq_collect {fields : List (String × Json)}
    (hnodup : (fields.map (·.1)).Nodup) :
    sortedFields fields = Named.collect (sortValues fields) := by
  refine (ordered_sortedFields fields).ext (Named.ordered_collect _) fun name => ?_
  rw [get?_sortedFields, Named.get?_collect (by rwa [names_sortValues]), sortValues,
    Named.get?_map]

/-- Sorting an object whose names differ moves its fields, and sorts their values. -/
theorem sortedFields_perm {fields : List (String × Json)} (hnodup : (fields.map (·.1)).Nodup) :
    (sortedFields fields).Perm (sortValues fields) := by
  rw [sortedFields_eq_collect hnodup]
  exact Named.perm_collect (by rwa [names_sortValues])

/-! ## Sorted objects -/

lemma sorted_list {items : List Json} (h : ∀ item ∈ items, item.sorted = item) :
    (list items).sorted = .list items := by
  rw [sorted, sortedItems_eq_map, List.map_congr_left h, List.map_id']

/-- An object whose fields are in order, and whose values are sorted, is sorted. -/
lemma sorted_object {fields : List (String × Json)} (h : Named.Ordered fields)
    (hfields : ∀ name v, Named.get? name fields = some v → v.sorted = v) :
    (object fields).sorted = .object fields := by
  rw [sorted, (ordered_sortedFields fields).ext h fun name => ?_]
  rw [get?_sortedFields]
  cases hv : Named.get? name fields with
  | none => rfl
  | some v => rw [Option.map_some, hfields name v hv]

lemma ordered_of_sorted {fields : List (String × Json)}
    (h : (object fields).sorted = .object fields) : Named.Ordered fields := by
  rw [sorted, object.injEq] at h
  exact h ▸ ordered_sortedFields fields

lemma sorted_of_get? {fields : List (String × Json)} {name : String} {v : Json}
    (h : (object fields).sorted = .object fields) (hv : Named.get? name fields = some v) :
    v.sorted = v := by
  rw [sorted, object.injEq] at h
  have hget := get?_sortedFields name fields
  rw [h, hv] at hget
  exact (Option.some.inj hget).symm

/-- A sorted object stays sorted when a sorted value is put under its name. -/
lemma sorted_insert {fields : List (String × Json)} (h : (object fields).sorted = .object fields)
    (name : String) {v : Json} (hv : v.sorted = v) :
    (object (Named.insert name v fields)).sorted = .object (Named.insert name v fields) := by
  refine sorted_object ((ordered_of_sorted h).insert name v) fun n w hw => ?_
  rw [Named.get?_insert] at hw
  split at hw
  · exact Option.some.inj hw ▸ hv
  · exact sorted_of_get? h hw

lemma sorted_ne_object {v : Json} (h : ∀ fields, v ≠ .object fields) :
    ∀ fields, v.sorted ≠ .object fields := by
  cases v <;> simp_all [sorted]

/-! ## Merging -/

/-- Anything but an object or `null` replaces what it is laid over. -/
lemma merge_eq_right {base v : Json} (hnull : v ≠ .null) (hobject : ∀ fields, v ≠ .object fields) :
    merge base v = v := by
  cases v with
  | null => exact absurd rfl hnull
  | object fields => exact absurd rfl (hobject fields)
  | _ => rfl

/-- What stands under a name in a merged object. -/
def mergeAt (below above : Option Json) : Option Json :=
  match below, above with
  | below, none => below
  | none, some v => some v
  | some b, some v => some (merge b v)

lemma mergeFields_ordered (upper : List (String × Json)) {base : List (String × Json)}
    (h : Named.Ordered base) : Named.Ordered (mergeFields base upper) := by
  induction upper generalizing base with
  | nil => exact h
  | cons field rest ih => exact ih (h.insert _ _)

theorem get?_mergeFields {upper : List (String × Json)} (hnodup : (upper.map (·.1)).Nodup)
    (base : List (String × Json)) (name : String) :
    Named.get? name (mergeFields base upper) =
      mergeAt (Named.get? name base) (Named.get? name upper) := by
  induction upper generalizing base with
  | nil => cases hb : Named.get? name base <;> simp [mergeFields, mergeAt, Named.get?, hb]
  | cons field rest ih =>
    obtain ⟨n, v⟩ := field
    rw [List.map_cons, List.nodup_cons] at hnodup
    rw [mergeFields, ih hnodup.2, Named.get?_insert, Named.get?]
    by_cases hn : n = name
    · subst hn
      rw [Named.get?_eq_none_iff.2 hnodup.1]
      cases hb : Named.get? n base <;> simp [mergeAt]
    · simp only [hn, if_false]

end Pipework.Json
