import Mathlib.Data.List.Pairwise
import Pipework.Json.Codec
import Pipework.Proofs.Json.RoundTrip

/-!
# Codecs that get back what they wrote

`Codec.Restores` is what a codec has to satisfy for a text to keep its values: what it writes is
lossless and of bounded height, and decoding what was written, sorted as a reader leaves it, gives
the value back.  The value comes back in a normal form, because sorting reorders the entries of a
table.

A record is restored field by field (`restores_record`).  The fields of the value that was read
stand in another order than those that were written, and a record may leave some out, so the
statement needs two facts about a record type: its fields have different names, and putting two of
them into a record can be done in either order (`Field.Apart`).
-/

namespace Pipework.Json.Codec

variable {α β σ : Type}

/-- A codec whose values a text keeps: what is written has at most `depth` levels, and what is
decoded from it is the value in the form `norm`. -/
structure Restores (c : Codec α) (depth : Nat) (norm : α → α) : Prop where
  lossless (x : α) : (c.encode x).Lossless
  height_le (x : α) : (c.encode x).height ≤ depth
  ne_null (x : α) : c.encode x ≠ .null
  decode_sorted (x : α) : c.decode (c.encode x).sorted = .ok (norm x)

lemma sorted_ne_null {v : Json} (h : v ≠ .null) : v.sorted ≠ .null := by
  cases v <;> simp_all [sorted]

/-! ## Scalars, lists and tables -/

lemma restores_bool (depth : Nat) : bool.Restores depth id where
  lossless b := .bool b
  height_le b := by simp [bool, height]
  ne_null b := by simp [bool]
  decode_sorted b := by simp [bool, sorted]

lemma restores_string (depth : Nat) : string.Restores depth id where
  lossless s := .string s
  height_le s := by simp [string, height]
  ne_null s := by simp [string]
  decode_sorted s := by simp [string, sorted]

/-- A choice gets back the values that are found under their own names. -/
lemma restores_choice (depth : Nat) {variants : List (String × α)} {name : α → String}
    (h : ∀ x, variants.lookup (name x) = some x) : (choice variants name).Restores depth id where
  lossless x := .string _
  height_le x := by simp [choice, height]
  ne_null x := by simp [choice]
  decode_sorted x := by simp [choice, sorted, chosen, h]

lemma mapM_decode_sorted {c : Codec α} {depth : Nat} {norm : α → α} (h : c.Restores depth norm)
    (xs : List α) :
    (xs.map fun x => (c.encode x).sorted).mapM c.decode = .ok (xs.map norm) := by
  induction xs with
  | nil => rfl
  | cons x xs ih => simp [List.mapM_cons, h.decode_sorted, ih]

lemma restores_list {c : Codec α} {depth : Nat} {norm : α → α} (h : c.Restores depth norm) :
    (list c).Restores (depth + 1) (List.map norm) where
  lossless xs := by
    refine .list fun v hv => ?_
    obtain ⟨x, -, rfl⟩ := List.mem_map.1 hv
    exact h.lossless x
  height_le xs := by
    simp only [list, height, Nat.add_le_add_iff_right, heightItems_le]
    intro v hv
    obtain ⟨x, -, rfl⟩ := List.mem_map.1 hv
    exact h.height_le x
  ne_null xs := by simp [list]
  decode_sorted xs := by
    simp only [list, sorted, sortedItems_eq_map, List.map_map]
    exact mapM_decode_sorted h xs

/-- Entries in the order of their names, put into a table one after the other. -/
lemma foldlM_table {c : Codec α} {depth : Nat} {norm : α → α} (h : c.Restores depth norm)
    (insert : σ → String → α → σ) (entries : List (String × α)) (s : σ) :
    (entries.map fun entry => (entry.1, (c.encode entry.2).sorted)).foldlM
        (fun s entry => do pure (insert s entry.1 (← c.decode entry.2))) s =
      .ok (entries.foldl (fun s entry => insert s entry.1 (norm entry.2)) s) := by
  induction entries generalizing s with
  | nil => rfl
  | cons entry rest ih =>
    rw [List.map_cons, List.foldlM_cons, h.decode_sorted]
    exact ih _

/-- A table comes back with its entries put in the order of their names. -/
lemma restores_table {c : Codec α} {depth : Nat} {norm : α → α} (h : c.Restores depth norm)
    {start : σ} {insert : σ → String → α → σ} {entries : σ → List (String × α)}
    (hnodup : ∀ s, ((entries s).map (·.1)).Nodup) :
    (table c start insert entries).Restores (depth + 1) fun s =>
      (Named.collect (entries s)).foldl (fun s entry => insert s entry.1 (norm entry.2)) start where
  lossless s := by
    refine .object (by rw [Named.names_map]; exact hnodup s) fun field hfield => ?_
    obtain ⟨entry, -, rfl⟩ := List.mem_map.1 hfield
    exact h.lossless entry.2
  height_le s := by
    simp only [table, height, Nat.add_le_add_iff_right, heightFields_le]
    intro field hfield
    obtain ⟨entry, -, rfl⟩ := List.mem_map.1 hfield
    exact h.height_le entry.2
  ne_null s := by simp [table]
  decode_sorted s := by
    have hnames : (((entries s).map fun entry => (entry.1, c.encode entry.2)).map (·.1)).Nodup := by
      rw [Named.names_map]
      exact hnodup s
    simp only [table, sorted]
    rw [sortedFields_eq_collect hnames, sortValues, List.map_map, ← foldlM_table h,
      Named.map_collect fun x => (c.encode x).sorted]
    rfl

/-! ## Records

A record is decoded from its entries one after the other, and each entry is a step that either fails
or changes one field. -/

/-- Two fields that can be put into a record in either order. -/
def Field.Apart (f g : Field σ) : Prop :=
  ∀ v w a b s, f.decode v = .ok a → g.decode w = .ok b → a (b s) = b (a s)

/-- A record after one entry of an object was put into it. -/
def putEntry (fields : List (Field σ)) (s : σ) (entry : String × Json) : Except Cause σ :=
  match fields.find? (·.name == entry.1) with
  | some f => do pure ((← f.decode entry.2) s)
  | none => .ok s

/-- A record after it was given the field that another one has. -/
def Field.restore (f : Field σ) (x s : σ) : Except Cause σ :=
  match f.write x with
  | some v => do pure ((← f.decode v.sorted) s)
  | none => .ok s

instance : Std.Symm (@Field.Apart σ) where
  symm _ _ h v w a b s ha hb := (h w v b a s hb ha).symm

lemma decodeFields_eq_foldlM (fields : List (Field σ)) (given : List (String × Json)) (s : σ) :
    decodeFields fields s given = given.foldlM (putEntry fields) s := by
  induction given generalizing s with
  | nil => rfl
  | cons entry rest ih =>
    obtain ⟨name, v⟩ := entry
    rw [decodeFields, List.foldlM_cons, putEntry]
    cases fields.find? (·.name == name) with
    | none => exact ih s
    | some f =>
      cases hv : f.decode v with
      | error e => simp [hv]
      | ok a => simpa [hv] using ih (a s)

/-- Steps that can be swapped can be taken in any order. -/
lemma foldlM_perm {ε γ : Type} {step : σ → γ → Except ε σ} {l l' : List γ} (hperm : l.Perm l')
    (hswap : ∀ x ∈ l, ∀ y ∈ l, ∀ s s',
      (step s x >>= (step · y)) = .ok s' → (step s y >>= (step · x)) = .ok s')
    {s s' : σ} (h : l.foldlM step s = .ok s') : l'.foldlM step s = .ok s' := by
  induction hperm generalizing s with
  | nil => exact h
  | cons x hperm ih =>
    rw [List.foldlM_cons, bind_eq_ok] at h ⊢
    obtain ⟨s₁, hx, hrest⟩ := h
    refine ⟨s₁, hx, ih (fun y hy z hz => ?_) hrest⟩
    exact hswap y (List.mem_cons_of_mem _ hy) z (List.mem_cons_of_mem _ hz)
  | swap x y l =>
    simp only [List.foldlM_cons] at h ⊢
    rw [← bind_assoc, bind_eq_ok] at h ⊢
    obtain ⟨s₁, hpair, hrest⟩ := h
    exact ⟨s₁, hswap y (by simp) x (by simp) _ _ hpair, hrest⟩
  | trans hperm _ ih ih' =>
    refine ih' (fun y hy z hz => ?_) (ih hswap h)
    exact hswap y (hperm.mem_iff.2 hy) z (hperm.mem_iff.2 hz)

lemma find?_name {fields : List (Field σ)} (hnames : (fields.map (·.name)).Nodup) {f : Field σ}
    (hf : f ∈ fields) : fields.find? (·.name == f.name) = some f := by
  induction fields with
  | nil => simp at hf
  | cons g rest ih =>
    rw [List.map_cons, List.nodup_cons] at hnames
    rcases List.mem_cons.1 hf with rfl | hmem
    · simp
    · have hne : g.name ≠ f.name := fun heq => hnames.1 (heq ▸ List.mem_map_of_mem hmem)
      rw [List.find?_cons_of_neg (by simpa using hne)]
      exact ih hnames.2 hmem

section Record

variable {fields : List (Field σ)}

/-- Two entries under different names can be put into a record in either order. -/
lemma putEntry_swap (hapart : fields.Pairwise Field.Apart) {x y : String × Json} (hne : x.1 ≠ y.1)
    {s s' : σ} (h : (putEntry fields s x >>= (putEntry fields · y)) = .ok s') :
    (putEntry fields s y >>= (putEntry fields · x)) = .ok s' := by
  unfold putEntry at h ⊢
  cases hf : fields.find? (·.name == x.1) with
  | none => cases hg : fields.find? (·.name == y.1) <;> simpa [hf, hg] using h
  | some f =>
    cases hg : fields.find? (·.name == y.1) with
    | none => simpa [hf, hg] using h
    | some g =>
      have hfg : f ≠ g := by
        rintro rfl
        have hx := List.find?_some hf
        have hy := List.find?_some hg
        simp only [beq_iff_eq] at hx hy
        exact hne (hx.symm.trans hy)
      have hap : f.Apart g := hapart.forall
        (List.mem_of_find?_eq_some hf) (List.mem_of_find?_eq_some hg) hfg
      cases hv : f.decode x.2 with
      | error e => simp [hf, hv] at h
      | ok a =>
        cases hw : g.decode y.2 with
        | error e => simp [hf, hg, hv, hw] at h
        | ok b =>
          simp only [hf, hg, hv, hw, ok_bind, pure_eq_ok, Except.ok.injEq] at h ⊢
          rw [hap _ _ _ _ s hv hw, h]

/-- Entries whose names differ make the same record in any order. -/
lemma foldlM_putEntry_perm (hapart : fields.Pairwise Field.Apart)
    {given others : List (String × Json)} (hnodup : (given.map (·.1)).Nodup)
    (hperm : given.Perm others) {s s' : σ} (h : given.foldlM (putEntry fields) s = .ok s') :
    others.foldlM (putEntry fields) s = .ok s' := by
  refine foldlM_perm hperm (fun x hx y hy s s' h => ?_) h
  by_cases hxy : x.1 = y.1
  · obtain rfl : x = y := List.inj_on_of_nodup_map hnodup hx hy hxy
    exact h
  · exact putEntry_swap hapart hxy h

/-- The fields that a record has, put into another record in the order they are declared. -/
lemma foldlM_putEntry (hnames : (fields.map (·.name)).Nodup) (x s : σ) {declared : List (Field σ)}
    (hsub : ∀ f ∈ declared, f ∈ fields) :
    (sortValues (declared.filterMap fun f => (f.write x).map fun v => (f.name, v))).foldlM
        (putEntry fields) s =
      declared.foldlM (fun s f => f.restore x s) s := by
  induction declared generalizing s with
  | nil => rfl
  | cons f rest ih =>
    have hrest : ∀ g ∈ rest, g ∈ fields := fun g hg => hsub g (List.mem_cons_of_mem _ hg)
    cases hw : f.write x with
    | none => simp [hw, Field.restore, ih s hrest]
    | some v =>
      rw [List.filterMap_cons_some (by rw [hw]; rfl), List.foldlM_cons, sortValues, List.map_cons,
        List.foldlM_cons]
      have hput : putEntry fields s (f.name, v.sorted) = f.restore x s := by
        simp [putEntry, find?_name hnames (hsub f List.mem_cons_self), Field.restore, hw]
      rw [hput]
      exact bind_congr fun s => ih s hrest

/-- The names of the fields that are written are names of fields. -/
lemma nodup_written (hnames : (fields.map (·.name)).Nodup) (x : σ) :
    ((fields.filterMap fun f => (f.write x).map fun v => (f.name, v)).map (·.1)).Nodup := by
  refine hnames.sublist ?_
  clear hnames
  induction fields with
  | nil => exact List.Sublist.refl _
  | cons f rest ih =>
    cases hw : f.write x with
    | none => simpa [hw] using ih.cons f.name
    | some v => simpa [hw] using ih

/-- A field that may be left out and whose values a text keeps. -/
structure Field.Keeps (f : Field σ) (depth : Nat) : Prop where
  free : f.required = false
  lossless {x : σ} {v : Json} (h : f.write x = some v) : v.Lossless
  height_le {x : σ} {v : Json} (h : f.write x = some v) : v.height ≤ depth

/-- A record is restored if its fields put what another record has into one that has nothing. -/
theorem restores_record {name : RecordName} {start : σ} {depth : Nat} {norm : σ → σ}
    (hnames : (fields.map (·.name)).Nodup) (hapart : fields.Pairwise Field.Apart)
    (hkeeps : ∀ f ∈ fields, f.Keeps depth)
    (hrestore : ∀ x, fields.foldlM (fun s f => f.restore x s) start = .ok (norm x)) :
    (record name start fields).Restores (depth + 1) norm where
  lossless x := by
    refine .object (nodup_written hnames x) fun field hfield => ?_
    obtain ⟨f, hf, hw⟩ := List.mem_filterMap.1 hfield
    obtain ⟨v, hv, rfl⟩ := Option.map_eq_some_iff.1 hw
    exact (hkeeps f hf).lossless hv
  height_le x := by
    simp only [record, height, Nat.add_le_add_iff_right, heightFields_le]
    intro field hfield
    obtain ⟨f, hf, hw⟩ := List.mem_filterMap.1 hfield
    obtain ⟨v, hv, rfl⟩ := Option.map_eq_some_iff.1 hw
    exact (hkeeps f hf).height_le hv
  ne_null x := by simp [record]
  decode_sorted x := by
    have hwritten := nodup_written hnames x
    -- the fields that were read are those that were written, in another order
    have hput : (sortedFields (fields.filterMap fun f =>
        (f.write x).map fun v => (f.name, v))).foldlM (putEntry fields) start = .ok (norm x) := by
      refine foldlM_putEntry_perm hapart ?_ (sortedFields_perm hwritten).symm ?_
      · rwa [names_sortValues]
      · rw [foldlM_putEntry hnames x start fun f hf => hf, hrestore]
    have hgiven (seen : List String) : checkGiven fields seen = .ok () := by
      rw [checkGiven, List.find?_eq_none.2 fun f hf => by simp [(hkeeps f hf).free]]
    simp [record, sorted, decodeFields_eq_foldlM, hput, hgiven]

end Record

/-! ## Fields -/

section Field

variable {name : String} {c : Codec α} {depth : Nat} {norm : α → α} {get : σ → α}
  {set : α → σ → σ}

lemma Field.apart_field {name' : String} {c' : Codec β} {get' : σ → β} {set' : β → σ → σ}
    (h : ∀ x y s, set x (set' y s) = set' y (set x s)) :
    (field name c get set).Apart (field name' c' get' set') := by
  intro v w a b s ha hb
  cases hv : c.decode v with
  | error e => simp [field, hv, Except.map] at ha
  | ok x =>
    cases hw : c'.decode w with
    | error e => simp [field, hw, Except.map] at hb
    | ok y =>
      simp only [field, hv, hw, map_ok, Except.ok.injEq] at ha hb
      rw [← ha, ← hb, h]

/-- Leaving a field out of some records does not change how it is decoded. -/
@[simp]
lemma Field.apart_omitIf {f g : Field σ} {skip : σ → Bool} :
    (f.omitIf skip).Apart g ↔ f.Apart g := Iff.rfl

@[simp]
lemma Field.apart_omitIf_right {f g : Field σ} {skip : σ → Bool} :
    f.Apart (g.omitIf skip) ↔ f.Apart g := Iff.rfl

lemma Restores.keeps (h : c.Restores depth norm) : (field name c get set).Keeps depth where
  free := rfl
  lossless {x v} hw := by
    simp only [field, Option.some.injEq] at hw
    exact hw ▸ h.lossless (get x)
  height_le {x v} hw := by
    simp only [field, Option.some.injEq] at hw
    exact hw ▸ h.height_le (get x)

lemma Field.Keeps.omitIf {f : Field σ} (h : f.Keeps depth) (skip : σ → Bool) :
    (f.omitIf skip).Keeps depth where
  free := h.free
  lossless {x v} hw := by
    simp only [Field.omitIf, Option.ite_none_left_eq_some] at hw
    exact h.lossless hw.2
  height_le {x v} hw := by
    simp only [Field.omitIf, Option.ite_none_left_eq_some] at hw
    exact h.height_le hw.2

lemma Restores.restore (h : c.Restores depth norm) (x s : σ) :
    (field name c get set).restore x s = .ok (set (norm (get x)) s) := by
  simp [Field.restore, field, h.decode_sorted]

/-- A field that is left out where putting it would change nothing is restored all the same. -/
lemma Restores.restore_omitIf (h : c.Restores depth norm) {skip : σ → Bool} {x s : σ}
    (hskip : skip x = true → set (norm (get x)) s = s) :
    ((field name c get set).omitIf skip).restore x s = .ok (set (norm (get x)) s) := by
  by_cases hx : skip x = true
  · simp [Field.restore, Field.omitIf, hx, hskip hx]
  · simp [Field.restore, Field.omitIf, hx, field, h.decode_sorted]

end Field

/-! ## One record laid over another -/

/-- What a field has in one record is replaced by what it has in another. -/
def Field.Covers (f : Field σ) (below above : σ) : Prop :=
  ∀ b, f.write below = some b → ∃ v, f.write above = some v ∧ merge b.sorted v.sorted = v.sorted

lemma get?_written {fields : List (Field σ)} (hnames : (fields.map (·.name)).Nodup) (x : σ)
    {f : Field σ} (hf : f ∈ fields) :
    Named.get? f.name (fields.filterMap fun f => (f.write x).map fun v => (f.name, v)) =
      f.write x := by
  cases hw : f.write x with
  | some v =>
    refine Named.get?_eq_some_of_mem (nodup_written hnames x) ?_
    exact List.mem_filterMap.2 ⟨f, hf, by rw [hw]; rfl⟩
  | none =>
    refine Named.get?_eq_none_iff.2 fun hm => ?_
    obtain ⟨entry, hentry, hname⟩ := List.mem_map.1 hm
    obtain ⟨g, hg, hgw⟩ := List.mem_filterMap.1 hentry
    obtain ⟨v, hv, rfl⟩ := Option.map_eq_some_iff.1 hgw
    obtain rfl : g = f := List.inj_on_of_nodup_map hnames hg hf hname
    rw [hw] at hv
    cases hv

/-- A record laid over one whose every field it covers is there unchanged. -/
theorem merge_record {name : RecordName} {start : σ} {fields : List (Field σ)}
    (hnames : (fields.map (·.name)).Nodup) {below above : σ}
    (h : ∀ f ∈ fields, f.Covers below above) :
    merge ((record name start fields).encode below).sorted
        ((record name start fields).encode above).sorted =
      ((record name start fields).encode above).sorted := by
  simp only [record, sorted, merge, Json.object.injEq]
  refine (mergeFields_ordered _ (ordered_sortedFields _)).ext (ordered_sortedFields _) fun n => ?_
  rw [get?_mergeFields (ordered_sortedFields _).nodup, get?_sortedFields, get?_sortedFields]
  cases hb : Named.get? n (fields.filterMap fun f => (f.write below).map fun v => (f.name, v)) with
  | none =>
    cases Named.get? n (fields.filterMap fun f => (f.write above).map fun v => (f.name, v)) <;> rfl
  | some b =>
    obtain ⟨f, hf, hw⟩ := List.mem_filterMap.1 (Named.mem_of_get?_eq_some hb)
    obtain ⟨b', hb', heq⟩ := Option.map_eq_some_iff.1 hw
    obtain ⟨rfl, rfl⟩ := Prod.mk.injEq .. ▸ heq
    obtain ⟨v, hv, hmerge⟩ := h f hf _ hb'
    simp [get?_written hnames above hf, hv, mergeAt, hmerge]

/-- A field with values that are no objects covers what it is laid over. -/
lemma Field.covers_field {name : String} {c : Codec α} {get : σ → α} {set : α → σ → σ}
    {below above : σ} (hnull : c.encode (get above) ≠ .null)
    (hobject : ∀ fields, c.encode (get above) ≠ .object fields) :
    (field name c get set).Covers below above := by
  refine fun b _ => ⟨_, rfl, merge_eq_right (sorted_ne_null hnull) fun fields => ?_⟩
  cases hv : c.encode (get above) <;> simp_all [sorted]

/-- A field that the lower record leaves out is covered. -/
lemma Field.covers_of_write_eq_none {f : Field σ} {below above : σ} (h : f.write below = none) :
    f.Covers below above := fun b hb => by simp [h] at hb

end Pipework.Json.Codec
