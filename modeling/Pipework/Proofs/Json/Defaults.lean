import Pipework.Proofs.Json.Codec

/-!
# Fields that are not given

An object is put into a record entry by entry, and an entry that is `Idle` changes nothing: what the
record starts with, put into it once more, or a field that is not known.  Entries with different
names do not disturb each other, so that an idle entry stays idle whatever is put before it, and may
as well not be there (`foldlM_filter`, `foldlM_extend`).

A record type whose fields may all be left out is `Lenient`.  There are two ways to fill what an
object of such a type leaves out: starting from the record that has every default, and laying the
object over that record's own object.  `decode_merge` says when they come to the same, also for
objects with `null` in them, which keeps what lies below.
-/

namespace Pipework.Json

/-! ## Objects with `null` in them -/

/-- Whether the value is `null`. -/
def isNull : Json → Bool
  | .null => true
  | _ => false

@[simp]
lemma isNull_eq_false_iff {v : Json} : v.isNull = false ↔ v ≠ .null := by
  cases v <;> simp [isNull]

/-- The value under a name of an object. -/
def field? (name : String) : Json → Option Json
  | .object fields => Named.get? name fields
  | _ => none

/-- An object without its entries that are `null`. -/
def withoutNulls : Json → Json
  | .object fields => .object (fields.filter (!·.2.isNull))
  | v => v

/-- An object with another value under a name, if it has one there. -/
def mapField (name : String) (f : Json → Json) : Json → Json
  | .object fields =>
    .object (fields.map fun entry => (entry.1, if entry.1 = name then f entry.2 else entry.2))
  | v => v

lemma withoutNulls_eq_null_iff {v : Json} : v.withoutNulls = .null ↔ v = .null := by
  cases v <;> simp [withoutNulls]

lemma ne_null_of_withoutNulls {v : Json} {fields : List (String × Json)}
    (h : v.withoutNulls = .object fields) : ∀ entry ∈ fields, entry.2 ≠ .null := by
  cases v with
  | object given =>
    rw [withoutNulls, object.injEq] at h
    intro entry hentry
    rw [← h, List.mem_filter] at hentry
    simpa using hentry.2
  | _ => cases h

lemma sorted_withoutNulls {v : Json} (h : v.sorted = v) :
    v.withoutNulls.sorted = v.withoutNulls := by
  cases v with
  | object fields =>
    have hfields := ordered_of_sorted h
    refine sorted_object (hfields.filter _) fun name w hw => ?_
    rw [Named.get?_filter hfields.nodup, Option.filter_eq_some_iff] at hw
    exact sorted_of_get? h hw.1
  | _ => exact h

/-! ## Values laid over others -/

/-- Where no object lies below, anything but `null` replaces it. -/
lemma merge_of_not_object {base v : Json} (hbase : ∀ fields, base ≠ .object fields)
    (hv : v ≠ .null) : merge base v = v := by
  cases v with
  | null => exact absurd rfl hv
  | object upper =>
    cases base with
    | object fields => exact absurd rfl (hbase fields)
    | _ => rfl
  | _ => rfl

lemma mergeAt_of_not_object {below : Option Json} {v : Json}
    (hbelow : ∀ b, below = some b → ∀ fields, b ≠ .object fields) (hv : v ≠ .null) :
    mergeAt below (some v) = some v := by
  cases below with
  | none => rfl
  | some b => rw [mergeAt, merge_of_not_object (hbelow b rfl) hv]

namespace Codec

variable {σ : Type} {fields : List (Field σ)} {start s s' : σ}

/-! ## Entries one by one -/

/-- The entry changes nothing in a record. -/
def Idle (fields : List (Field σ)) (s : σ) (entry : String × Json) : Prop :=
  putEntry fields s entry = .ok s

/-- Two values that put the same under a name, or are refused alike. -/
def Alike (fields : List (Field σ)) (name : String) (v w : Json) : Prop :=
  ∀ s, putEntry fields s (name, v) = putEntry fields s (name, w)

lemma putEntry_name (hnames : (fields.map (·.name)).Nodup) {f : Field σ} (hf : f ∈ fields)
    (s : σ) (v : Json) : putEntry fields s (f.name, v) = (f.decode v).map (· s) := by
  rw [putEntry, find?_name hnames hf]
  cases hv : f.decode v <;> simp [hv, Except.map]

/-- A field that is not known is ignored. -/
lemma idle_of_unknown {entry : String × Json} (h : ∀ f ∈ fields, f.name ≠ entry.1) :
    Idle fields s entry := by
  have hnone : fields.find? (·.name == entry.1) = none := by simpa using h
  simp [Idle, putEntry, hnone]

/-- An entry is a change of records, or is refused whatever the record. -/
lemma putEntry_cases (fields : List (Field σ)) (entry : String × Json) :
    (∃ change : σ → σ, ∀ s, putEntry fields s entry = .ok (change s)) ∨
      ∃ cause, ∀ s, putEntry fields s entry = .error cause := by
  cases hf : fields.find? (·.name == entry.1) with
  | none => exact .inl ⟨id, fun s => by simp [putEntry, hf]⟩
  | some f =>
    cases hv : f.decode entry.2 with
    | ok change => exact .inl ⟨change, fun s => by simp [putEntry, hf, hv]⟩
    | error cause => exact .inr ⟨cause, fun s => by simp [putEntry, hf, hv]⟩

/-- Values that are alike can stand for each other. -/
lemma foldlM_map_alike {given : List (String × Json)} {g : String → Json → Json}
    (h : ∀ entry ∈ given, Alike fields entry.1 (g entry.1 entry.2) entry.2) (s : σ) :
    (given.map fun entry => (entry.1, g entry.1 entry.2)).foldlM (putEntry fields) s =
      given.foldlM (putEntry fields) s := by
  induction given generalizing s with
  | nil => rfl
  | cons x rest ih =>
    rw [List.forall_mem_cons] at h
    rw [List.map_cons, List.foldlM_cons, List.foldlM_cons, h.1 s]
    exact bind_congr fun s => ih h.2 s

section Apart

variable (hapart : fields.Pairwise Field.Apart) {given more : List (String × Json)}

include hapart

/-- An idle entry is idle still after one under another name was put. -/
lemma Idle.put {x y : String × Json} (hne : x.1 ≠ y.1) (hx : Idle fields s x)
    (hy : putEntry fields s y = .ok s') : Idle fields s' x := by
  have hpair : (putEntry fields s x >>= (putEntry fields · y)) = .ok s' := by rw [hx]; exact hy
  have hswapped := putEntry_swap hapart hne hpair
  rwa [hy] at hswapped

/-- An idle entry is idle still after any others were put. -/
lemma Idle.foldlM {x : String × Json} (hx : Idle fields s x) (hnew : x.1 ∉ given.map (·.1))
    (h : given.foldlM (putEntry fields) s = .ok s') : Idle fields s' x := by
  induction given generalizing s with
  | nil => exact Except.ok.inj h ▸ hx
  | cons y rest ih =>
    rw [List.map_cons, List.mem_cons, not_or] at hnew
    obtain ⟨s₁, hy, hrest⟩ := bind_eq_ok.1 h
    exact ih (hx.put hapart hnew.1 hy) hnew.2 hrest

/-- Idle entries may as well not be there. -/
theorem foldlM_filter {p : String × Json → Bool} (hnodup : (given.map (·.1)).Nodup)
    (hidle : ∀ entry ∈ given, p entry = false → Idle fields s entry) :
    (given.filter p).foldlM (putEntry fields) s = given.foldlM (putEntry fields) s := by
  induction given generalizing s with
  | nil => rfl
  | cons x rest ih =>
    rw [List.map_cons, List.nodup_cons] at hnodup
    rw [List.forall_mem_cons] at hidle
    cases hp : p x with
    | false =>
      have hx : putEntry fields s x = .ok s := hidle.1 hp
      rw [List.filter_cons_of_neg (by simp [hp]), List.foldlM_cons, hx]
      exact ih hnodup.2 hidle.2
    | true =>
      rw [List.filter_cons_of_pos hp, List.foldlM_cons, List.foldlM_cons]
      cases hx : putEntry fields s x with
      | error cause => rfl
      | ok s₁ =>
        apply ih hnodup.2
        intro entry hentry hdrop
        have hne : entry.1 ≠ x.1 := fun heq => hnodup.1 (heq ▸ List.mem_map_of_mem hentry)
        exact (hidle.2 entry hentry hdrop).put hapart hne hx

/-- An object with everything that another one has, or something alike, and besides that only idle
entries, makes the same record or is refused alike. -/
theorem foldlM_extend (hgiven : Named.Ordered given) (hmore : Named.Ordered more)
    (halike : ∀ name v, Named.get? name given = some v →
      ∃ w, Named.get? name more = some w ∧ Alike fields name w v)
    (hidle : ∀ name w, Named.get? name given = none → Named.get? name more = some w →
      Idle fields s (name, w)) :
    more.foldlM (putEntry fields) s = given.foldlM (putEntry fields) s := by
  have hkept := hgiven.filter_names hmore fun name v hv => (halike name v hv).imp fun _ h => h.1
  calc more.foldlM (putEntry fields) s
    _ = (more.filter fun entry => (Named.get? entry.1 given).isSome).foldlM
          (putEntry fields) s := by
      symm
      apply foldlM_filter hapart hmore.nodup
      intro entry hentry hnone
      have hget := Named.get?_eq_some_of_mem hmore.nodup hentry
      exact hidle entry.1 entry.2 (by simpa using hnone) hget
    _ = given.foldlM (putEntry fields) s := by
      rw [hkept]
      refine foldlM_map_alike (g := fun name v => (Named.get? name more).getD v) ?_ s
      intro entry hentry
      obtain ⟨w, hw, h⟩ := halike entry.1 entry.2 (Named.get?_eq_some_of_mem hgiven.nodup hentry)
      simpa [hw] using h

/-- Each entry of an object can be the one that was put last. -/
lemma exists_putEntry_of_mem (hnodup : (given.map (·.1)).Nodup) {entry : String × Json}
    (hmem : entry ∈ given) (h : given.foldlM (putEntry fields) s = .ok s') :
    ∃ t, putEntry fields t entry = .ok s' := by
  obtain ⟨front, back, rfl⟩ := List.append_of_mem hmem
  have hperm : (front ++ entry :: back).Perm ((front ++ back) ++ [entry]) :=
    List.perm_middle.trans (List.perm_append_singleton entry (front ++ back)).symm
  have hlast := foldlM_putEntry_perm hapart hnodup hperm h
  rw [List.foldlM_append, bind_eq_ok] at hlast
  obtain ⟨t, -, hput⟩ := hlast
  rw [List.foldlM_cons, bind_eq_ok] at hput
  obtain ⟨s₁, hput, hdone⟩ := hput
  obtain rfl : s₁ = s' := Except.ok.inj hdone
  exact ⟨t, hput⟩

end Apart

/-! ## Refused entries -/

/-- The entry is refused, whatever the record. -/
def Refused (fields : List (Field σ)) (cause : Cause) (entry : String × Json) : Prop :=
  ∀ s, putEntry fields s entry = .error cause

/-- Nothing is refused in an object that makes a record. -/
lemma not_refused_of_foldlM {given : List (String × Json)} {cause : Cause}
    (h : given.foldlM (putEntry fields) s = .ok s') :
    ∀ entry ∈ given, ¬Refused fields cause entry := by
  induction given generalizing s with
  | nil => simp
  | cons x rest ih =>
    obtain ⟨s₁, hx, hrest⟩ := bind_eq_ok.1 h
    refine List.forall_mem_cons.2 ⟨fun hrefused => ?_, ih hrest⟩
    rw [hrefused s] at hx
    cases hx

/-- An object with a refused entry makes no record. -/
lemma exists_error_of_refused {given : List (String × Json)} {cause : Cause}
    {entry : String × Json} (hmem : entry ∈ given) (h : Refused fields cause entry) (s : σ) :
    ∃ cause', given.foldlM (putEntry fields) s = .error cause' := by
  cases hfold : given.foldlM (putEntry fields) s with
  | error cause' => exact ⟨cause', rfl⟩
  | ok s' => exact absurd h (not_refused_of_foldlM hfold entry hmem)

/-- If all entries that are refused are refused for one cause, the object is refused for it. -/
lemma foldlM_eq_error {given : List (String × Json)} {cause : Cause}
    (hcause : ∀ entry ∈ given, ∀ cause', Refused fields cause' entry → cause' = cause)
    {entry : String × Json} (hmem : entry ∈ given) (h : Refused fields cause entry) (s : σ) :
    given.foldlM (putEntry fields) s = .error cause := by
  induction given generalizing s with
  | nil => cases hmem
  | cons x rest ih =>
    rw [List.forall_mem_cons] at hcause
    rw [List.foldlM_cons]
    rcases putEntry_cases fields x with ⟨change, hx⟩ | ⟨cause', hx⟩
    · -- the refused entry is one of those behind
      have hrest : entry ∈ rest := by
        rcases List.mem_cons.1 hmem with rfl | hrest
        · have himpossible := h s
          rw [hx s] at himpossible
          cases himpossible
        · exact hrest
      rw [hx s]
      exact ih hcause.2 hrest (change s)
    · rw [hx s, hcause.1 cause' hx]
      rfl

/-! ## Records with a default for every field -/

/-- What is written of a field that was put is what was put. -/
def Field.Settled (f : Field σ) : Prop :=
  ∀ v change s t, f.decode v = .ok change → f.write (change s) = f.write (change t)

lemma Field.settled_field {α : Type} {name : String} {c : Codec α} {get : σ → α}
    {set : α → σ → σ} (h : ∀ x s, get (set x s) = x) : (field name c get set).Settled := by
  intro v change s t hchange
  obtain ⟨x, -, rfl⟩ := map_eq_ok.1 hchange
  simp [field, h]

/-- Whether a field is left out may depend on what it has. -/
lemma Field.settled_omitIf {α : Type} {name : String} {c : Codec α} {get : σ → α}
    {set : α → σ → σ} (h : ∀ x s, get (set x s) = x) (skip : α → Bool) :
    ((field name c get set).omitIf fun s => skip (get s)).Settled := by
  intro v change s t hchange
  obtain ⟨x, -, rfl⟩ := map_eq_ok.1 hchange
  simp [field, Field.omitIf, h]

/-- A record type whose fields may be left out, each of them, and whose start is the record that
they all are left out of. -/
structure Lenient (start : σ) (fields : List (Field σ)) : Prop where
  names : (fields.map (·.name)).Nodup
  apart : fields.Pairwise Field.Apart
  free : ∀ f ∈ fields, f.required = false
  restore : ∀ f ∈ fields, f.restore start start = .ok start
  settled : ∀ f ∈ fields, f.Settled

/-- What the start has under a name, in the form that an object is laid over. -/
def below (fields : List (Field σ)) (start : σ) (name : String) : Option Json :=
  Named.get? name
    (sortedFields (fields.filterMap fun f => (f.write start).map fun v => (f.name, v)))

lemma below_name (hnames : (fields.map (·.name)).Nodup) {f : Field σ} (hf : f ∈ fields) :
    below fields start f.name = (f.write start).map sorted := by
  rw [below, get?_sortedFields, get?_written hnames start hf]

lemma exists_of_below {name : String} {b : Json} (h : below fields start name = some b) :
    ∃ f ∈ fields, f.name = name ∧ ∃ v, f.write start = some v ∧ v.sorted = b := by
  rw [below, get?_sortedFields, Option.map_eq_some_iff] at h
  obtain ⟨v, hv, rfl⟩ := h
  obtain ⟨f, hf, hw⟩ := List.mem_filterMap.1 (Named.mem_of_get?_eq_some hv)
  obtain ⟨v', hv', heq⟩ := Option.map_eq_some_iff.1 hw
  obtain ⟨rfl, rfl⟩ := Prod.mk.injEq .. ▸ heq
  exact ⟨f, hf, rfl, v', hv', rfl⟩

namespace Lenient

variable (h : Lenient start fields)

include h

/-- An object is put into the start entry by entry, and nothing else is asked of it. -/
lemma decode_object (name : RecordName) (given : List (String × Json)) :
    (record name start fields).decode (.object given) =
      given.foldlM (putEntry fields) start := by
  have hgiven (seen : List String) : checkGiven fields seen = .ok () := by
    rw [checkGiven, List.find?_eq_none.2 fun f hf => by simp [h.free f hf]]
  simp only [record, decodeFields_eq_foldlM, hgiven]
  exact bind_pure _

/-- Putting into the start what it has changes nothing. -/
lemma idle_below {name : String} {b : Json} (hb : below fields start name = some b) :
    Idle fields start (name, b) := by
  obtain ⟨f, hf, rfl, v, hv, rfl⟩ := exists_of_below hb
  have hrestore := h.restore f hf
  simp only [Field.restore, hv] at hrestore
  rw [Idle, putEntry, find?_name h.names hf]
  exact hrestore

/-- Laying an object over the start's own makes the record that `kept` makes, if `kept` is the
object without entries that are `null`, and has the other values as they come out of the merge. -/
theorem decode_merge (name : RecordName) {given kept : List (String × Json)}
    (hgiven : Named.Ordered given) (hkept : Named.Ordered kept)
    (halike : ∀ n v, Named.get? n kept = some v →
      ∃ w, mergeAt (below fields start n) (Named.get? n given) = some w ∧ Alike fields n w v)
    (hdrop : ∀ n v, Named.get? n kept = none → Named.get? n given = some v →
      v = .null ∧ (below fields start n = none → Idle fields start (n, .null))) :
    (record name start fields).decode
        (merge ((record name start fields).encode start).sorted (.object given)) =
      (record name start fields).decode (.object kept) := by
  have hmerged (n : String) := get?_mergeFields hgiven.nodup
    (sortedFields (fields.filterMap fun f => (f.write start).map fun v => (f.name, v))) n
  show (record name start fields).decode (.object (mergeFields (sortedFields _) given)) = _
  rw [h.decode_object, h.decode_object]
  apply foldlM_extend h.apart hkept (mergeFields_ordered _ (ordered_sortedFields _))
  · intro n v hv
    obtain ⟨w, hw, halike⟩ := halike n v hv
    exact ⟨w, (hmerged n).trans hw, halike⟩
  · intro n w hnone hw
    rw [hmerged n] at hw
    cases hg : Named.get? n given with
    | none =>
      rw [hg] at hw
      exact h.idle_below hw
    | some v =>
      obtain ⟨rfl, hnull⟩ := hdrop n v hnone hg
      cases hb : below fields start n with
      | none =>
        rw [hg, show Named.get? n _ = none from hb] at hw
        obtain rfl := Option.some.inj hw
        exact hnull hb
      | some b =>
        rw [hg, show Named.get? n _ = some b from hb] at hw
        obtain rfl : b = w := Option.some.inj hw
        exact h.idle_below hb

/-- Where nothing lies below, a field is not known or the start leaves it out. -/
lemma below_eq_none {name : String} (hb : below fields start name = none) :
    (∀ f ∈ fields, f.name ≠ name) ∨ ∃ f ∈ fields, f.name = name ∧ f.write start = none := by
  by_cases hknown : ∃ f ∈ fields, f.name = name
  · obtain ⟨f, hf, rfl⟩ := hknown
    rw [below_name h.names hf, Option.map_eq_none_iff] at hb
    exact .inr ⟨f, hf, rfl, hb⟩
  · exact .inl fun f hf hname => hknown ⟨f, hf, hname⟩

/-- A field for which something idle can be put, and that is not given, stays as the start has
it. -/
lemma write_eq_of_idle {f : Field σ} (hf : f ∈ fields) {v : Json}
    (hidle : Idle fields start (f.name, v)) {given : List (String × Json)}
    (hnew : f.name ∉ given.map (·.1)) (hs : given.foldlM (putEntry fields) start = .ok s) :
    f.write s = f.write start := by
  have hidle' := hidle.foldlM h.apart hnew hs
  rw [Idle, putEntry_name h.names hf] at hidle hidle'
  obtain ⟨change, hchange, hstart⟩ := map_eq_ok.1 hidle
  obtain ⟨change', hchange', hend⟩ := map_eq_ok.1 hidle'
  obtain rfl : change = change' := Except.ok.inj (hchange.symm.trans hchange')
  calc f.write s
    _ = f.write (change s) := by rw [hend]
    _ = f.write (change start) := h.settled f hf v change s start hchange
    _ = f.write start := by rw [hstart]

/-- What is not given is written as the start has it, if something lies below or `null` is idle. -/
theorem field?_encode_of_notMem (name : RecordName) {n : String}
    (hnull : below fields start n = none → Idle fields start (n, .null))
    {given : List (String × Json)} (hnew : n ∉ given.map (·.1))
    (hs : given.foldlM (putEntry fields) start = .ok s) :
    ((record name start fields).encode s).field? n =
      ((record name start fields).encode start).field? n := by
  by_cases hknown : ∃ f ∈ fields, f.name = n
  · obtain ⟨f, hf, rfl⟩ := hknown
    simp only [record, field?, get?_written h.names _ hf]
    cases hb : below fields start f.name with
    | none => exact h.write_eq_of_idle hf (hnull hb) hnew hs
    | some b => exact h.write_eq_of_idle hf (h.idle_below hb) hnew hs
  · have hunknown (x : σ) :
        Named.get? n (fields.filterMap fun f => (f.write x).map fun v => (f.name, v)) = none := by
      refine Named.get?_eq_none_iff.2 fun hm => hknown ?_
      obtain ⟨entry, hentry, hname⟩ := List.mem_map.1 hm
      obtain ⟨f, hf, hw⟩ := List.mem_filterMap.1 hentry
      obtain ⟨v, -, rfl⟩ := Option.map_eq_some_iff.1 hw
      exact ⟨f, hf, hname⟩
    simp only [record, field?, hunknown]

end Lenient

end Codec

end Pipework.Json
