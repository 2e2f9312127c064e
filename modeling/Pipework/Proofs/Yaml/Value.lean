import Mathlib.Control.Basic
import Mathlib.Data.Option.Basic
import Pipework.Proofs.Json.Sorted
import Pipework.Yaml.Value

/-!
# What nodes say as JSON

`Node.SaysJson levels node v` says that a node without anchors stands for the JSON value `v` wherever
some levels may be nested.  That the fields of the objects in it are sorted holds of every document
(`sorted_of_read`).
-/

namespace Pipework.Yaml.Node

/-- A node without anchors that stands for a value of some levels. -/
structure SaysJson (levels : Nat) (node : Node) (v : Json) : Prop where
  anchored_eq (found : List (Nat × Node)) : node.anchored found = found
  toJson_eq {limit : Nat} (hlevels : levels ≤ limit) (left : Nat) :
    (node.toJson [] limit).run left = some (v, left)

variable {levels : Nat}

/-- A scalar that is not taken for anything else is its text. -/
lemma SaysJson.text {plain : Bool} {s : List Char} (h : plain = true → resolve s = .text) :
    SaysJson (levels + 1) (.scalar none none plain s) (.string (String.ofList s)) where
  anchored_eq _ := rfl
  toJson_eq {limit} hlevels left := by
    obtain ⟨limit, rfl⟩ := Nat.exists_eq_add_of_le' (Nat.one_le_of_lt hlevels)
    have hmeaning : meaning? none plain s = some .text := by
      cases plain with
      | false => rfl
      | true => simp [meaning?, h rfl]
    rw [toJson]
    simp [follow, ofScalar?, hmeaning, ofResolved?]

/-- One entry, whose key is a scalar, is an object with one field. -/
lemma SaysJson.field {node : Node} {v : Json} (h : SaysJson (levels + 1) node v) (plain : Bool)
    (s : List Char) :
    SaysJson (levels + 2) (.object none none [(.scalar none none plain s, node)])
      (.object [(String.ofList s, v)]) where
  anchored_eq found := by
    rw [anchored, anchoredEntries, anchoredEntries, h.anchored_eq]
    rfl
  toJson_eq {limit} hlevels left := by
    obtain ⟨limit, rfl⟩ := Nat.exists_eq_add_of_le' (Nat.one_le_of_lt hlevels)
    have hlimit : 0 < limit := by omega
    have hvalue := h.toJson_eq (by omega : levels + 1 ≤ limit) left
    rw [toJson]
    simp [follow, isForeign, hlimit, keyText, hvalue, Named.insert]

lemma SaysJson.value?_eq {node : Node} {v : Json} (h : SaysJson levels node v)
    (hlevels : levels ≤ levelLimit + 1) : node.value? = some v := by
  rw [value?, h.anchored_eq, h.toJson_eq hlevels]
  rfl

/-! ## Sorted values -/

lemma run_bind_eq_some {α β : Type} {x : Follow α} {f : α → Follow β} {left : Nat}
    {r : β × Nat} :
    (x >>= f).run left = some r ↔
      ∃ a rest, x.run left = some (a, rest) ∧ (f a).run rest = some r := by
  simp [StateT.run_bind, Option.bind_eq_some_iff]

lemma sorted_of_ofResolved? {s : List Char} {r : Resolved} {v : Json}
    (h : ofResolved? s r = some v) : v.sorted = v := by
  cases r <;> cases h <;> rfl

lemma sorted_of_ofScalar? {tag : Option (List Char)} {plain : Bool} {s : List Char} {v : Json}
    (h : ofScalar? tag plain s = some v) : v.sorted = v := by
  obtain ⟨r, -, hr⟩ := Option.bind_eq_some_iff.1 h
  exact sorted_of_ofResolved? hr

/-- What holds of everything that a step yields holds of all the items it yields. -/
lemma forall_of_mapM {α β : Type} {f : α → Follow β} {P : β → Prop}
    (hf : ∀ a left b rest, (f a).run left = some (b, rest) → P b) {as : List α} {bs : List β}
    {left rest : Nat} (h : (as.mapM f).run left = some (bs, rest)) : ∀ b ∈ bs, P b := by
  induction as generalizing left bs with
  | nil =>
    cases h
    simp
  | cons a as ih =>
    rw [List.mapM_cons, run_bind_eq_some] at h
    obtain ⟨b, rest', hb, h⟩ := h
    obtain ⟨bs', rest'', hbs, h⟩ := run_bind_eq_some.1 h
    cases h
    exact List.forall_mem_cons.2 ⟨hf _ _ _ _ hb, ih hbs⟩

/-- What every step leaves is left by all of them. -/
lemma invariant_of_foldlM {α σ : Type} {f : σ → α → Follow σ} {P : σ → Prop}
    (hf : ∀ s a left s' rest, (f s a).run left = some (s', rest) → P s → P s') {as : List α}
    {s s' : σ} {left rest : Nat} (h : (as.foldlM f s).run left = some (s', rest)) (hs : P s) :
    P s' := by
  induction as generalizing left s with
  | nil =>
    cases h
    exact hs
  | cons a as ih =>
    rw [List.foldlM_cons, run_bind_eq_some] at h
    obtain ⟨s₁, rest', hstep, h⟩ := h
    exact ih h (hf _ _ _ _ _ hstep hs)

lemma sorted_of_toJson {anchors : List (Nat × Node)} {limit left rest : Nat} {node : Node}
    {v : Json} (h : (node.toJson anchors limit).run left = some (v, rest)) : v.sorted = v := by
  induction limit generalizing node left rest v with
  | zero => cases h
  | succ limit ih =>
    rw [toJson, run_bind_eq_some] at h
    obtain ⟨node', left', -, h⟩ := h
    rcases node' with ⟨_, tag, plain, s⟩ | ⟨_, tag, items⟩ | ⟨_, tag, entries⟩ | n
    · cases hv : ofScalar? tag plain s with
      | none => simp [hv] at h
      | some w =>
        simp only [hv] at h
        cases h
        exact sorted_of_ofScalar? hv
    · simp only [run_bind_eq_some] at h
      obtain ⟨-, mid, -, items', mid', hitems, h⟩ := h
      cases h
      exact Json.sorted_list (forall_of_mapM (fun _ _ _ _ hitem => ih hitem) hitems)
    · simp only [run_bind_eq_some] at h
      obtain ⟨-, mid, -, fields, mid', hfields, h⟩ := h
      cases h
      refine invariant_of_foldlM (P := fun fields => (Json.object fields).sorted = .object fields)
        (fun fields entry left fields' rest hstep hsorted => ?_) hfields rfl
      simp only [run_bind_eq_some] at hstep
      obtain ⟨name, mid, -, w, mid', hw, hstep⟩ := hstep
      cases hstep
      exact Json.sorted_insert hsorted name (ih hw)
    · cases h

end Pipework.Yaml.Node

namespace Pipework.Yaml

/-- The fields of every object in a document's value stand in the order of their names. -/
theorem sorted_of_read {text : String} {v : Json} (h : read text = some v) : v.sorted = v := by
  obtain ⟨tokens, -, h⟩ := Option.bind_eq_some_iff.1 h
  obtain ⟨node?, -, h⟩ := Option.bind_eq_some_iff.1 h
  cases node? with
  | none =>
    cases h
    rfl
  | some node =>
    obtain ⟨⟨w, rest⟩, hw, rfl⟩ := Option.map_eq_some_iff.1 h
    exact Node.sorted_of_toJson hw

end Pipework.Yaml
