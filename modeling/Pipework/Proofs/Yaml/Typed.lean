import Mathlib.Data.List.Forall2
import Mathlib.Data.Option.Basic
import Mathlib.Tactic.Lemma
import Pipework.Yaml.Typed

/-!
# What nodes say

`Node.Says levels node v` says that a node without anchors stands for the value `v` wherever some
levels may be nested.  Entries are those of an object if their keys are `Typed.Apart`.
-/

namespace Pipework.Yaml

namespace Typed

/-- No key of some entries stands twice. -/
def Apart (entries : List (Typed × Typed)) : Prop :=
  entries.Pairwise fun entry other => entry.1.same other.1 = false

/-- Fields as entries whose keys are strings. -/
def named (fields : List (String × Typed)) : List (Typed × Typed) :=
  fields.map fun field => (.string field.1, field.2)

lemma apart_append {entries others : List (Typed × Typed)} :
    Apart (entries ++ others) ↔ Apart entries ∧ Apart others ∧
      ∀ entry ∈ entries, ∀ other ∈ others, entry.1.same other.1 = false :=
  List.pairwise_append

lemma same_string_of_ne {s t : String} (h : s ≠ t) : (string s).same (string t) = false := by
  rw [same, beq_eq_false_iff_ne]
  exact h

/-- Entries with different names are apart if different names are different keys. -/
lemma apart_map {α : Type} {key : String → Typed}
    (hkey : ∀ {s t : String}, s ≠ t → (key s).same (key t) = false) {name : α → String}
    {value : α → Typed} {items : List α} (h : (items.map name).Nodup) :
    Apart (items.map fun item => (key (name item), value item)) := by
  rw [List.Nodup, List.pairwise_map] at h
  rw [Apart, List.pairwise_map]
  exact h.imp hkey

/-- A scalar that is not taken for anything else is its text. -/
lemma ofScalar?_of_text {plain : Bool} {s : List Char} (h : plain = true → resolve s = .text) :
    ofScalar? none plain s = some (.string (String.ofList s)) := by
  cases plain with
  | false => rfl
  | true => simp [ofScalar?, Node.isForeign, Node.meaning?, h rfl, ofResolved?, withTag]

end Typed

namespace Node

/-- A node without anchors that stands for a value of some levels. -/
structure Says (levels : Nat) (node : Node) (v : Typed) : Prop where
  anchored_eq (found : List (Nat × Node)) : node.anchored found = found
  toTyped_eq {limit : Nat} (hlevels : levels ≤ limit) (left : Nat) :
    (node.toTyped [] limit).run left = some (v, left)

/-- An entry of nodes that stands for one of values. -/
structure SaysEntry (levels : Nat) (entry : Node × Node) (said : Typed × Typed) : Prop where
  key : Says levels entry.1 said.1
  value : Says levels entry.2 said.2

variable {levels : Nat}

/-! ## Scalars -/

lemma Says.scalar {plain : Bool} {s : List Char} {v : Typed}
    (h : Typed.ofScalar? none plain s = some v) :
    Says (levels + 1) (.scalar none none plain s) v where
  anchored_eq _ := rfl
  toTyped_eq {limit} hlevels left := by
    obtain ⟨limit, rfl⟩ := Nat.exists_eq_add_of_le' (Nat.one_le_of_lt hlevels)
    rw [toTyped]
    simp [follow, h]

lemma Says.text {plain : Bool} {s : List Char} (h : plain = true → resolve s = .text) :
    Says (levels + 1) (.scalar none none plain s) (.string (String.ofList s)) :=
  .scalar (Typed.ofScalar?_of_text h)

lemma Says.missing : Says (levels + 1) missing .null := .scalar rfl

/-- Every value takes up a level. -/
lemma Says.exists_eq_succ {node : Node} {v : Typed} (h : Says levels node v) :
    ∃ inner, levels = inner + 1 := by
  cases levels with
  | zero => simpa [toTyped] using h.toTyped_eq (Nat.le_refl 0) 0
  | succ inner => exact ⟨inner, rfl⟩

/-! ## Collections -/

lemma anchoredItems_eq {items : List Node} {vs : List Typed}
    (h : List.Forall₂ (Says levels) items vs) (found : List (Nat × Node)) :
    anchoredItems found items = found := by
  induction h with
  | nil => rfl
  | cons hitem _ ih => rw [anchoredItems, hitem.anchored_eq, ih]

lemma anchoredEntries_eq {entries : List (Node × Node)} {said : List (Typed × Typed)}
    (h : List.Forall₂ (SaysEntry levels) entries said) (found : List (Nat × Node)) :
    anchoredEntries found entries = found := by
  induction h with
  | nil => rfl
  | cons hentry _ ih =>
    rw [anchoredEntries, hentry.key.anchored_eq, hentry.value.anchored_eq, ih]

lemma mapM_toTyped {items : List Node} {vs : List Typed} (h : List.Forall₂ (Says levels) items vs)
    {limit : Nat} (hlevels : levels ≤ limit) (left : Nat) :
    (items.mapM (toTyped [] limit)).run left = some (vs, left) := by
  induction h with
  | nil => rfl
  | cons hitem _ ih =>
    rw [List.mapM_cons]
    simp [hitem.toTyped_eq hlevels, ih]

lemma Says.list {items : List Node} {vs : List Typed}
    (h : List.Forall₂ (Says (levels + 1)) items vs) :
    Says (levels + 2) (.list none none items) (.list vs) where
  anchored_eq := anchoredItems_eq h
  toTyped_eq {limit} hlevels left := by
    obtain ⟨limit, rfl⟩ := Nat.exists_eq_add_of_le' (Nat.one_le_of_lt hlevels)
    have hlimit : 0 < limit := by omega
    rw [toTyped]
    simp [follow, hlimit, mapM_toTyped h (by omega : levels + 1 ≤ limit), Typed.withTag]

/-- Entries are put behind those before them, where none of these has the key of one of them. -/
lemma foldlM_toTyped {entries : List (Node × Node)} {said : List (Typed × Typed)}
    (h : List.Forall₂ (SaysEntry levels) entries said) {limit : Nat} (hlevels : levels ≤ limit)
    (left : Nat) (before : List (Typed × Typed)) (hapart : Typed.Apart (before ++ said)) :
    (entries.foldlM (addEntry (toTyped [] limit)) before).run left =
      some (before ++ said, left) := by
  induction h generalizing before with
  | nil => simp
  | @cons entry said entries rest hentry _ ih =>
    have hfree : (before.any fun found => found.1.same said.1) = false :=
      List.any_eq_false.2 fun found hfound => by
        simp [(Typed.apart_append.1 hapart).2.2 found hfound said List.mem_cons_self]
    have hrest := ih (before ++ [said]) (by simpa using hapart)
    rw [List.foldlM_cons]
    simpa [addEntry, hentry.key.toTyped_eq hlevels, hentry.value.toTyped_eq hlevels, hfree]
      using hrest

/-- Entries with different keys are an object. -/
lemma Says.object {entries : List (Node × Node)} {said : List (Typed × Typed)}
    (h : List.Forall₂ (SaysEntry (levels + 1)) entries said) (hapart : Typed.Apart said) :
    Says (levels + 2) (.object none none entries) (.object said) where
  anchored_eq := anchoredEntries_eq h
  toTyped_eq {limit} hlevels left := by
    obtain ⟨limit, rfl⟩ := Nat.exists_eq_add_of_le' (Nat.one_le_of_lt hlevels)
    have hlimit : 0 < limit := by omega
    have hfold := foldlM_toTyped h (by omega : levels + 1 ≤ limit) left [] hapart
    rw [toTyped]
    simpa [follow, hlimit, Typed.withTag] using hfold

/-! ## Documents -/

lemma Says.typed?_eq {node : Node} {v : Typed} (h : Says levels node v)
    (hlevels : levels ≤ levelLimit + 1) : node.typed? = some v := by
  rw [typed?, h.anchored_eq, h.toTyped_eq hlevels]
  rfl

end Node

end Pipework.Yaml
