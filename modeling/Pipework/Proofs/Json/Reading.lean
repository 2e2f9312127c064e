import Pipework.Proofs.Json.Codec

/-!
# Values read from their own text

A codec reads a value from text without building it first.  `Codec.Rereads` says that it gets back
the very value whose text it reads, wherever the text stands and whatever follows it; unlike the
value that a whole text is, a table keeps its entries in the order in which they stand there.

A record is read field by field, in the order in which the fields were written (`rereads_record`).
`Codec.Refills` goes over the declared fields, with one lemma per kind of field, and says what is in
the record when all of them have been read.
-/

namespace Pipework.Json

/-- Only `null` begins with its first letter. -/
lemma Lossless.exists_cons_ne_n {v : Json} (hv : v.Lossless) (hnull : v ≠ .null) (level : Nat) :
    ∃ c cs, v.writePretty level = c :: cs ∧ c ≠ 'n' := by
  cases hv with
  | null => exact absurd rfl hnull
  | bool b =>
    cases b with
    | false => exact ⟨'f', "alse".toList, rfl, by decide⟩
    | true => exact ⟨'t', "rue".toList, rfl, by decide⟩
  | natural h =>
    rename_i n
    obtain ⟨d, ds, heq⟩ := List.exists_cons_of_ne_nil (Nat.toDigits_ne_nil (n := n) (b := 10))
    refine ⟨d, ds, by simp [writePretty, Number.write, heq], ?_⟩
    rintro rfl
    have hdigit := Decimal.isDigit_toDigits (n := n) (c := 'n') (by simp [heq])
    exact absurd hdigit (by decide)
  | string s => exact ⟨'"', _, by simp [writePretty, writeString]; rfl, by decide⟩
  | list h =>
    rename_i items
    cases items with
    | nil => exact ⟨'[', _, rfl, by decide⟩
    | cons item rest => exact ⟨'[', _, by simp [writePretty]; rfl, by decide⟩
  | object hnodup h =>
    rename_i fields
    cases fields with
    | nil => exact ⟨'\x7b', _, rfl, by decide⟩
    | cons field rest => exact ⟨'\x7b', _, by simp [writePretty]; rfl, by decide⟩

/-- In front of a written value there is nothing to skip. -/
lemma Lossless.skip_writePretty {v : Json} (hv : v.Lossless) (level : Nat) (p : Place)
    (rest : List Char) :
    Cursor.skip ⟨p, v.writePretty level ++ rest⟩ = ⟨p, v.writePretty level ++ rest⟩ := by
  obtain ⟨c, cs, hcons, hblank, -⟩ := hv.exists_writePretty_eq_cons level
  rw [hcons, List.cons_append, skip_of_not_blank hblank]

/-- Past the colon of a field and the blank behind it stands its value. -/
lemma Lossless.skip_space {v : Json} (hv : v.Lossless) (level : Nat) (p : Place)
    (rest : List Char) :
    Cursor.skip ⟨p, ' ' :: (v.writePretty level ++ rest)⟩ =
      ⟨p.after ' ', v.writePretty level ++ rest⟩ := by
  rw [← hv.skip_writePretty]
  simp [Cursor.skip, Cursor.skipFrom, Cursor.isBlank]

namespace Codec

variable {α β σ : Type}

/-- A reader gets a value from its text, behind any blanks and with more than `depth` levels
left. -/
def Takes (read : Nat → Cursor → Except Error (β × Cursor)) (depth : Nat) (v : Json) (x : β) :
    Prop :=
  ∀ ⦃levels level : Nat⦄ ⦃cur : Cursor⦄ ⦃p : Place⦄ ⦃rest : List Char⦄, depth < levels →
    endsNumber rest = true → cur.skip = ⟨p, v.writePretty level ++ rest⟩ →
    ∃ q, read levels cur = .ok (x, ⟨q, rest⟩)

/-- A value that a codec gets back from the text it wrote. -/
structure Rereads (c : Codec α) (depth : Nat) (x : α) : Prop where
  lossless : (c.encode x).Lossless
  takes : Takes c.read depth (c.encode x) x

lemma Takes.gets {read : Nat → Cursor → Except Error (β × Cursor)} {depth : Nat} {v : Json}
    {x : β} (h : Takes read depth v x) (hv : v.Lossless) {levels : Nat} (hlevels : depth < levels)
    (level : Nat) : Gets (read levels) (v.writePretty level) x :=
  fun p rest hends => h hlevels hends (hv.skip_writePretty level p rest)

/-- A text that a codec wrote says the value that it wrote. -/
theorem Rereads.ofText {c : Codec α} {depth : Nat} {x : α} (h : c.Rereads depth x)
    (hdepth : depth < depthLimit) : c.ofText (c.encode x).pretty = .ok x := by
  obtain ⟨q, hq⟩ := h.takes.gets h.lossless hdepth 0 Place.start [] rfl
  rw [List.append_nil] at hq
  simp [Codec.ofText, pretty, Cursor.start, hq, readEnd, Cursor.skip, Cursor.skipFrom]

/-! ## Scalars -/

section

attribute [local simp] writePretty writeString

lemma rereads_bool (depth : Nat) (b : Bool) : bool.Rereads depth b where
  lossless := .bool b
  takes levels level cur p rest _ _ hskip := by
    cases b with
    | false =>
      obtain ⟨q, hq⟩ := readWord_append "alse".toList (p.after 'f') rest
      have htext : (toString false).toList = 'f' :: "alse".toList := rfl
      refine ⟨q, ?_⟩
      simp [bool, htext] at hskip hq ⊢
      simp [hskip, hq]
    | true =>
      obtain ⟨q, hq⟩ := readWord_append "rue".toList (p.after 't') rest
      have htext : (toString true).toList = 't' :: "rue".toList := rfl
      refine ⟨q, ?_⟩
      simp [bool, htext] at hskip hq ⊢
      simp [hskip, hq]

lemma rereads_string (depth : Nat) (s : String) : string.Rereads depth s where
  lossless := .string s
  takes levels level cur p rest _ _ hskip := by
    obtain ⟨q, hq⟩ := readString_append s (p.after '"') rest
    refine ⟨q, ?_⟩
    simp [string] at hskip ⊢
    simp [hskip, hq]

/-- Values with a text of their own are read back if that text is. -/
lemma rereads_text (depth : Nat) {expected : String} {write : α → String}
    {parse : String → Except Cause α} {x : α} (h : parse (write x) = .ok x) :
    (text expected write parse).Rereads depth x where
  lossless := .string _
  takes levels level cur p rest _ _ hskip := by
    obtain ⟨q, hq⟩ := readString_append (write x) (p.after '"') rest
    refine ⟨q, ?_⟩
    simp [text] at hskip ⊢
    simp [hskip, hq, h]

/-- A choice gets back the values that are found under their own names. -/
lemma rereads_choice (depth : Nat) {variants : List (String × α)} {name : α → String} {x : α}
    (h : variants.lookup (name x) = some x) : (choice variants name).Rereads depth x where
  lossless := .string _
  takes levels level cur p rest hlevels hends hskip := by
    have hparse : chosen variants (name x) = .ok x := by simp [chosen, h]
    have htext : (text "" name (chosen variants)).Rereads depth x := rereads_text depth hparse
    obtain ⟨q, hq⟩ := htext.takes hlevels hends (htext.lossless.skip_writePretty level p rest)
    have hencode : (text "" name (chosen variants)).encode x = .string (name x) := rfl
    refine ⟨q, ?_⟩
    rw [hencode] at hq
    simp [choice] at hskip hq ⊢
    simp [hskip, hq]

lemma rereads_natural (depth : Nat) {name : String} {bound n : Nat} (hn : n < bound)
    (hbound : bound ≤ UInt64.size) : (natural name bound).Rereads depth n where
  lossless := .natural (Nat.lt_of_lt_of_le hn hbound)
  takes levels level cur p rest _ hends hskip := by
    obtain ⟨q, hq⟩ := readNumber_toDigits (Nat.lt_of_lt_of_le hn hbound) p hends
    obtain ⟨d, ds, heq⟩ := List.exists_cons_of_ne_nil (Nat.toDigits_ne_nil (n := n) (b := 10))
    have hdigit := Decimal.isDigit_toDigits (n := n) (c := d) (by simp [heq])
    refine ⟨q, ?_⟩
    simp [natural, Number.write, heq] at hskip hq ⊢
    simp [hskip, hq, hdigit, natural?, hn]

end

lemma rereads_map {c : Codec α} {depth : Nat} {forth : α → β} {back : β → α} {y : β}
    (h : c.Rereads depth (back y)) (hy : forth (back y) = y) :
    (c.map forth back).Rereads depth y where
  lossless := h.lossless
  takes levels level cur p rest hlevels hends hskip := by
    obtain ⟨q, hq⟩ := h.takes hlevels hends hskip
    exact ⟨q, by simp [map, hq, hy]⟩

/-- A value that is there is read as such, because it is not taken for `null`. -/
lemma rereads_some {c : Codec α} {depth : Nat} {x : α} (h : c.Rereads depth x)
    (hnull : c.encode x ≠ .null) : c.option.Rereads depth (some x) where
  lossless := h.lossless
  takes levels level cur p rest hlevels hends hskip := by
    have hencode : c.option.encode (some x) = c.encode x := rfl
    rw [hencode] at hskip
    obtain ⟨ch, cs, hcons, hne⟩ := h.lossless.exists_cons_ne_n hnull level
    obtain ⟨q, hq⟩ := h.takes hlevels hends (h.lossless.skip_writePretty level p rest)
    refine ⟨q, ?_⟩
    rw [hcons, List.cons_append] at hskip hq
    simp [option, hskip, hq, hne]

/-! ## Lists and tables -/

lemma rereads_list {c : Codec α} {depth : Nat} {xs : List α} (h : ∀ x ∈ xs, c.Rereads depth x) :
    (list c).Rereads (depth + 1) xs where
  lossless := .list fun v hv => by
    obtain ⟨x, hx, rfl⟩ := List.mem_map.1 hv
    exact (h x hx).lossless
  takes levels level cur p rest hlevels _ hskip := by
    have hdeeper : ¬levels ≤ 1 := by omega
    have hlossless : ∀ v ∈ xs.map c.encode, v.Lossless := fun v hv => by
      obtain ⟨x, hx, rfl⟩ := List.mem_map.1 hv
      exact (h x hx).lossless
    have hitems : List.Forall₂
        (fun v x => Gets (c.read (levels - 1)) (v.writePretty (level + 1)) x)
        (xs.map c.encode) xs := by
      rw [List.forall₂_map_left_iff, List.forall₂_same]
      exact fun x hx => (h x hx).takes.gets (h x hx).lossless (by omega) (level + 1)
    obtain ⟨body, q, hbody, hq⟩ := exists_readItems hlossless hitems (p.after '[') rest
    have hopen : cur.skip = ⟨p, '[' :: body⟩ := hskip.trans (by rw [← hbody]; rfl)
    exact ⟨q, by simp [list, hopen, deeper, hdeeper, Cursor.fuel, hq]⟩

/-- How one entry of a table is read. -/
def readEntry (c : Codec α) (insert : σ → String → α → σ) (levels : Nat) (s : σ) (name : String)
    (cur : Cursor) : Except Error (σ × Cursor) := do
  let (x, cur) ← c.read levels (← readColon cur)
  pure (insert s name x, cur)

lemma passes_readEntry {c : Codec α} {depth levels : Nat} (hlevels : depth < levels)
    (insert : σ → String → α → σ) {entries : List (String × α)}
    (h : ∀ entry ∈ entries, c.Rereads depth entry.2) (level : Nat) (s : σ) :
    Passes (readEntry c insert levels) level s (entries.map fun (name, x) => (name, c.encode x))
      (entries.foldl (fun s entry => insert s entry.1 entry.2) s) := by
  induction entries generalizing s with
  | nil => exact .nil s
  | cons entry rest ih =>
    have hentry := h entry List.mem_cons_self
    refine .cons (fun p behind hends => ?_) (ih (fun e he => h e (.tail _ he)) _)
    obtain ⟨q, hq⟩ := hentry.takes hlevels hends
      (hentry.lossless.skip_space level (p.after ':') behind)
    exact ⟨q, by simp [readEntry, readColon_colon, hq]⟩

/-- A table comes back with its entries in the order in which they were written. -/
lemma rereads_table {c : Codec α} {depth : Nat} {start : σ} {insert : σ → String → α → σ}
    {entries : σ → List (String × α)} {s : σ}
    (h : ∀ entry ∈ entries s, c.Rereads depth entry.2)
    (hnodup : ((entries s).map (·.1)).Nodup)
    (hfold : (entries s).foldl (fun s entry => insert s entry.1 entry.2) start = s) :
    (table c start insert entries).Rereads (depth + 1) s where
  lossless := by
    refine .object (by rw [Named.names_map]; exact hnodup) fun field hfield => ?_
    obtain ⟨entry, hentry, rfl⟩ := List.mem_map.1 hfield
    exact (h entry hentry).lossless
  takes levels level cur p rest hlevels _ hskip := by
    have hdeeper : ¬levels ≤ 1 := by omega
    have hpasses := passes_readEntry (by omega : depth < levels - 1) insert h (level + 1) start
    rw [hfold] at hpasses
    obtain ⟨body, q, hbody, hq⟩ := exists_readMembers hpasses (p.after '\x7b') rest
    have hopen : cur.skip = ⟨p, '\x7b' :: body⟩ := hskip.trans (by rw [← hbody]; rfl)
    refine ⟨q, ?_⟩
    simp only [table, hopen, deeper, hdeeper, if_false, ok_bind, Cursor.fuel]
    exact hq

/-! ## Records -/

/-- Reading what the fields of a record wrote, one after the other, takes a record from one state to
another. -/
inductive Refills (depth : Nat) (x : σ) : List (Field σ) → σ → σ → Prop where
  | nil (s : σ) : Refills depth x [] s s
  | absent {f : Field σ} {fields : List (Field σ)} {s s' : σ} (hw : f.write x = none)
    (hfree : f.required = false) (h : Refills depth x fields s s') :
    Refills depth x (f :: fields) s s'
  | present {f : Field σ} {fields : List (Field σ)} {s s' : σ} {v : Json} {set : σ → σ}
    (hw : f.write x = some v) (hv : v.Lossless) (htakes : Takes f.read depth v set)
    (h : Refills depth x fields (set s) s') : Refills depth x (f :: fields) s s'

/-- The fields of a record as they are written. -/
def written (fields : List (Field σ)) (x : σ) : List (String × Json) :=
  fields.filterMap fun f => (f.write x).map fun v => (f.name, v)

section

variable {fields declared : List (Field σ)} {depth : Nat} {x s s' : σ}

lemma Refills.lossless (h : Refills depth x declared s s') :
    ∀ field ∈ written declared x, field.2.Lossless := by
  induction h with
  | nil => simp [written]
  | absent hw _ _ ih => simpa [written, hw] using ih
  | present hw hv _ _ ih =>
    rw [written, List.filterMap_cons_some (by rw [hw]; rfl), List.forall_mem_cons]
    exact ⟨hv, ih⟩

/-- How one member of a record is read. -/
def readField (fields : List (Field σ)) (levels : Nat) (s : σ × List String) (key : String)
    (c : Cursor) : Except Error ((σ × List String) × Cursor) :=
  match fields.find? (·.name == key) with
  | none => do
    let c ← readColon c
    pure (s, ← skipValue c.fuel c)
  | some f =>
    if s.2.contains key then .error (repeated key c)
    else do
      let (set, c) ← f.read levels (← readColon c)
      pure ((set s.1, key :: s.2), c)

/-- What begins with a brace is read member by member. -/
lemma read_record_brace (name : RecordName) (start : σ) (fields : List (Field σ)) {levels : Nat}
    (hlevels : 1 < levels) {cur : Cursor} {p : Place} {body : List Char}
    (hopen : cur.skip = ⟨p, '\x7b' :: body⟩) :
    (record name start fields).read levels cur = (do
      let ((s, seen), c) ← readMembers (readField fields (levels - 1)) (body.length + 1) true
        (start, []) ⟨p.after '\x7b', body⟩
      match checkGiven fields seen with
      | .ok () => pure (s, c)
      | .error cause => .error (c.fails cause)) := by
  have hdeeper : ¬levels ≤ 1 := by omega
  simp only [record, hopen, deeper, hdeeper, if_false, ok_bind]
  rfl

/-- The fields that were written are read one after the other, none of them twice, and among those
seen are all that must be given. -/
lemma Refills.exists_passes (h : Refills depth x declared s s')
    (hnames : (fields.map (·.name)).Nodup) (hsub : ∀ f ∈ declared, f ∈ fields)
    (hdeclared : (declared.map (·.name)).Nodup) {levels : Nat} (hlevels : depth < levels)
    (level : Nat) {seen : List String} (hseen : ∀ f ∈ declared, f.name ∉ seen) :
    ∃ seen', seen ⊆ seen' ∧ (∀ f ∈ declared, f.required = true → f.name ∈ seen') ∧
      Passes (readField fields levels) level (s, seen) (written declared x) (s', seen') := by
  induction h generalizing seen with
  | nil s => exact ⟨seen, List.Subset.refl _, by simp, .nil _⟩
  | @absent f rest s s' hw hfree _ ih =>
    rw [List.map_cons, List.nodup_cons] at hdeclared
    obtain ⟨seen', hsubset, hrequired, hpasses⟩ := ih (fun g hg => hsub g (.tail _ hg))
      hdeclared.2 fun g hg => hseen g (.tail _ hg)
    refine ⟨seen', hsubset, fun g hg hgiven => ?_, by simpa [written, hw] using hpasses⟩
    rcases List.mem_cons.1 hg with rfl | hg
    · rw [hfree] at hgiven
      cases hgiven
    · exact hrequired g hg hgiven
  | @present f rest s s' v set hw hv htakes _ ih =>
    rw [List.map_cons, List.nodup_cons] at hdeclared
    have hnew : ∀ g ∈ rest, g.name ∉ f.name :: seen := by
      intro g hg hmem
      rcases List.mem_cons.1 hmem with heq | hmem
      · exact hdeclared.1 (heq ▸ List.mem_map_of_mem hg)
      · exact hseen g (.tail _ hg) hmem
    obtain ⟨seen', hsubset, hrequired, hpasses⟩ := ih (fun g hg => hsub g (.tail _ hg))
      hdeclared.2 hnew
    refine ⟨seen', fun key hkey => hsubset (.tail _ hkey), fun g hg hgiven => ?_, ?_⟩
    · rcases List.mem_cons.1 hg with rfl | hg
      · exact hsubset List.mem_cons_self
      · exact hrequired g hg hgiven
    · rw [written, List.filterMap_cons_some (by rw [hw]; rfl)]
      refine .cons (fun p behind hends => ?_) hpasses
      obtain ⟨q, hq⟩ := htakes hlevels hends (hv.skip_space level (p.after ':') behind)
      have hunseen : f.name ∉ seen := hseen f List.mem_cons_self
      refine ⟨q, ?_⟩
      simp [readField, find?_name hnames (hsub f List.mem_cons_self), hunseen, readColon_colon, hq]

/-- A record is read back if its fields fill an empty one with what it has. -/
theorem rereads_record {name : RecordName} {start : σ} (hnames : (fields.map (·.name)).Nodup)
    (h : Refills depth x fields start x) : (record name start fields).Rereads (depth + 1) x where
  lossless := .object (nodup_written hnames x) h.lossless
  takes levels level cur p rest hlevels _ hskip := by
    obtain ⟨seen, -, hrequired, hpasses⟩ := h.exists_passes hnames (fun f hf => hf) hnames
      (by omega : depth < levels - 1) (level + 1) (fun f _ => List.not_mem_nil)
    have hgiven : checkGiven fields seen = .ok () := by
      rw [checkGiven, List.find?_eq_none.2]
      intro f hf
      cases hfree : f.required with
      | false => simp
      | true => simp [hrequired f hf hfree]
    obtain ⟨body, q, hbody, hq⟩ := exists_readMembers hpasses (p.after '\x7b') rest
    have hopen : cur.skip = ⟨p, '\x7b' :: body⟩ := hskip.trans (by rw [← hbody]; rfl)
    refine ⟨q, ?_⟩
    rw [read_record_brace name start fields (by omega) hopen, hq]
    simp [hgiven]

/-! ### Fields -/

variable {name : String} {c : Codec α} {get : σ → α} {set : α → σ → σ}

lemma takes_field (name : String) (get : σ → α) (set : α → σ → σ) {y : α}
    (h : c.Rereads depth y) :
    Takes (field name c get set).read depth (c.encode y) (set y) := by
  intro levels level cur p rest hlevels hends hskip
  obtain ⟨q, hq⟩ := h.takes hlevels hends hskip
  exact ⟨q, by simp [Codec.field, hq]⟩

lemma Refills.field (h : c.Rereads depth (get x))
    (hrest : Refills depth x declared (set (get x) s) s') :
    Refills depth x (Codec.field name c get set :: declared) s s' :=
  .present rfl h.lossless (takes_field name get set h) hrest

lemma Refills.needed (h : c.Rereads depth (get x))
    (hrest : Refills depth x declared (set (get x) s) s') :
    Refills depth x ((Codec.field name c get set).needed :: declared) s s' :=
  .present rfl h.lossless (takes_field name get set h) hrest

/-- A field that is left out where putting it would change nothing. -/
lemma Refills.omitIf (h : c.Rereads depth (get x)) {skip : σ → Bool}
    (hskip : skip x = true → set (get x) s = s)
    (hrest : Refills depth x declared (set (get x) s) s') :
    Refills depth x ((Codec.field name c get set).omitIf skip :: declared) s s' := by
  by_cases hx : skip x = true
  · refine .absent (by simp [Field.omitIf, hx]) rfl ?_
    rwa [hskip hx] at hrest
  · exact .present (by simp [Field.omitIf, hx]; rfl) h.lossless (takes_field name get set h) hrest

end

end Codec

end Pipework.Json
