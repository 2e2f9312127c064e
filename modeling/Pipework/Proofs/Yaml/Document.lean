import Pipework.Proofs.Yaml.Node
import Pipework.Proofs.Yaml.Typed

/-!
# What a laid-out document says

The way from lines to values.  `SaysValue` holds what stands behind the colon of a key, `SaysFields`
lines that are the fields of an object, and `SaysItems` lines that are the items of a list, each
with the number of levels that the values have.  What a document says is found by putting these
together in the order of its lines, and read off at the end by `readTyped_write`.
-/

namespace Pipework.Yaml

open Layout Node

/-- The rest of a key's line and the lines below it, with the value that they are. -/
def SaysValue (levels level : Nat) (text : List Char) (lines : List Line) (v : Typed) : Prop :=
  ∃ ts node, Value level text lines ts ∧ Behind defaultHandles ts node ∧ Says levels node v

/-- Lines of a level that are fields of an object. -/
def SaysFields (levels level : Nat) (lines : List Line) (fields : List (Typed × Typed)) : Prop :=
  ∃ ts entries, Group .blockObject level lines ts ∧ Entries defaultHandles ts entries ∧
    List.Forall₂ (SaysEntry levels) entries fields

/-- Lines of a level that are items of a list. -/
def SaysItems (levels level : Nat) (lines : List Line) (vs : List Typed) : Prop :=
  ∃ ts nodes, Group .blockList level lines ts ∧ Items defaultHandles ts nodes ∧
    List.Forall₂ (Says levels) nodes vs

/-- A list of strings. -/
def strings (items : List String) : Typed := .list (items.map .string)

/-- A list, if it has any items. -/
def list? (vs : List Typed) : Option Typed :=
  if vs.isEmpty then none else some (.list vs)

/-- An object, if it has any fields. -/
def object? (fields : List (Typed × Typed)) : Option Typed :=
  if fields.isEmpty then none else some (.object fields)

/-- The fields among some that have a value. -/
def present (fields : List (String × Option Typed)) : List (Typed × Typed) :=
  Typed.named (fields.filterMap fun (name, v?) => v?.map (name, ·))

variable {levels level : Nat} {text : List Char} {lines lines' : List Line} {v : Typed}

/-! ## Fields -/

namespace SaysFields

variable {fields fields' : List (Typed × Typed)}

lemma nil : SaysFields levels level [] [] :=
  ⟨[], [], .nil, .nil, .nil⟩

lemma blank : SaysFields levels level [Layout.blank] [] :=
  ⟨[], [], .blank, .nil, .nil⟩

lemma append (h : SaysFields levels level lines fields)
    (h' : SaysFields levels level lines' fields') :
    SaysFields levels level (lines ++ lines') (fields ++ fields') := by
  obtain ⟨ts, entries, hgroup, hentries, hsaid⟩ := h
  obtain ⟨ts', entries', hgroup', hentries', hsaid'⟩ := h'
  exact ⟨ts ++ ts', entries ++ entries', hgroup.append hgroup', hentries.append hentries',
    List.rel_append hsaid hsaid'⟩

/-- A key with what stands behind it. -/
lemma entry {w s : List Char} {plain : Bool} {k : Typed} (h : Written w plain s)
    (hlength : w.length ≤ Scan.keyLimit) (hk : Typed.ofScalar? none plain s = some k)
    (hv : SaysValue levels level text lines v) :
    SaysFields levels level (⟨level, w ++ ':' :: text⟩ :: lines) [(k, v)] := by
  obtain ⟨ts, node, hvalue, hbehind, hsaid⟩ := hv
  obtain ⟨inner, rfl⟩ := hsaid.exists_eq_succ
  exact ⟨_, _, .entry h hlength hvalue, hbehind.entry plain s, .cons ⟨.scalar hk, hsaid⟩ .nil⟩

/-- A key that stands plain and is a string.  Of a name that is known, evaluation shows it. -/
lemma plain {name : String} (h : Plain name.toList ∧ name.toList.length ≤ Scan.keyLimit ∧
      (resolve name.toList).isText = true) (hv : SaysValue levels level text lines v) :
    SaysFields levels level (⟨level, name.toList ++ ':' :: text⟩ :: lines) [(.string name, v)] := by
  have hkey : Typed.ofScalar? none true name.toList = some (.string name) := by
    rw [Typed.ofScalar?_of_text fun _ => Resolved.eq_text h.2.2, String.ofList_toList]
  exact entry (.plain h.1) h.2.1 hkey hv

lemma flatMap {α : Type} {items : List α} {f : α → List Line} {g : α → List (Typed × Typed)}
    (h : ∀ x ∈ items, SaysFields levels level (f x) (g x)) :
    SaysFields levels level (items.flatMap f) (items.flatMap g) := by
  induction items with
  | nil => exact nil
  | cons x rest ih =>
    rw [List.flatMap_cons, List.flatMap_cons]
    exact (h x List.mem_cons_self).append (ih fun y hy => h y (List.mem_cons_of_mem _ hy))

lemma map {α : Type} {items : List α} {f : α → Line} {g : α → Typed × Typed}
    (h : ∀ x ∈ items, SaysFields levels level [f x] [g x]) :
    SaysFields levels level (items.map f) (items.map g) := by
  rw [List.map_eq_flatMap, List.map_eq_flatMap]
  exact flatMap h

end SaysFields

/-! ## Fields that may be absent -/

lemma present_cons (name : String) (v? : Option Typed) (rest : List (String × Option Typed)) :
    present ((name, v?) :: rest) = (v?.map (.string name, ·)).toList ++ present rest := by
  cases v? <;> simp [present, Typed.named]

lemma exists_of_mem_present {fields : List (String × Option Typed)} {entry : Typed × Typed}
    (h : entry ∈ present fields) : ∃ name ∈ fields.map (·.1), entry.1 = .string name := by
  obtain ⟨field, hfield, rfl⟩ := List.mem_map.1 h
  obtain ⟨⟨name, v?⟩, hmem, hsome⟩ := List.mem_filterMap.1 hfield
  obtain ⟨v, -, rfl⟩ := Option.map_eq_some_iff.1 hsome
  exact ⟨name, List.mem_map_of_mem hmem, rfl⟩

lemma present_eq_nil_iff {fields : List (String × Option Typed)} :
    present fields = [] ↔ ∀ field ∈ fields, field.2 = none := by
  simp [present, Typed.named]

lemma object?_eq_none_iff {fields : List (Typed × Typed)} :
    object? fields = none ↔ fields = [] := by
  simp [object?]

/-- Fields that have a value are some of all. -/
lemma apart_present {fields : List (String × Option Typed)} (h : (fields.map (·.1)).Nodup) :
    Typed.Apart (present fields) := by
  refine Typed.apart_map Typed.same_string_of_ne (h.sublist ?_)
  clear h
  induction fields with
  | nil => exact List.Sublist.slnil
  | cons field rest ih =>
    obtain ⟨name, v?⟩ := field
    cases v? with
    | none => exact ih.cons name
    | some v => exact ih.cons_cons name

/-- The lines of a field that may be absent. -/
def SaysField? (levels level : Nat) (lines : List Line) (name : String) (v? : Option Typed) :
    Prop :=
  SaysFields levels level lines (v?.map (.string name, ·)).toList

lemma SaysFields.cons {name : String} {v? : Option Typed} {rest : List (String × Option Typed)}
    (h : SaysField? levels level lines name v?)
    (h' : SaysFields levels level lines' (present rest)) :
    SaysFields levels level (lines ++ lines') (present ((name, v?) :: rest)) := by
  rw [present_cons]
  exact h.append h'

/-- The last field of an object. -/
lemma SaysFields.last {name : String} {v? : Option Typed}
    (h : SaysField? levels level lines name v?) :
    SaysFields levels level lines (present [(name, v?)]) := by
  rw [present_cons]
  exact (List.append_nil _).symm ▸ h

namespace SaysField?

variable {name : String}

lemma absent : SaysField? levels level [] name none := SaysFields.nil

lemma guarded {c : Prop} [Decidable c] (h : c → SaysFields levels level lines [(.string name, v)]) :
    SaysField? levels level (if c then lines else []) name (if c then some v else none) := by
  by_cases hc : c
  · rw [if_pos hc, if_pos hc]
    exact h hc
  · rw [if_neg hc, if_neg hc]
    exact absent

lemma guarded_not {c : Prop} [Decidable c]
    (h : ¬c → SaysFields levels level lines [(.string name, v)]) :
    SaysField? levels level (if c then [] else lines) name (if c then none else some v) := by
  by_cases hc : c
  · rw [if_pos hc, if_pos hc]
    exact absent
  · rw [if_neg hc, if_neg hc]
    exact h hc

lemma option_line {α : Type} {o : Option α} {f : α → Line} {g : α → Typed}
    (h : ∀ x ∈ o, SaysFields levels level [f x] [(.string name, g x)]) :
    SaysField? levels level (o.map f).toList name (o.map g) := by
  cases o with
  | none => exact absent
  | some x => exact h x rfl

/-- A field that is left out if its object has no fields, or its list no items. -/
lemma object {fields : List (Typed × Typed)} (hnil : fields = [] → lines = [])
    (h : fields ≠ [] → SaysFields levels level lines [(.string name, .object fields)]) :
    SaysField? levels level lines name (object? fields) := by
  cases fields with
  | nil =>
    rw [hnil rfl]
    exact absent
  | cons field rest => exact h (List.cons_ne_nil _ _)

/-- An object with a field for each of some items, that is left out if there are none. -/
lemma objectOf {α : Type} {items : List α} {field : α → Typed × Typed}
    (h : items ≠ [] → SaysFields levels level lines [(.string name, .object (items.map field))]) :
    SaysField? levels level (if items.isEmpty then [] else lines) name
      (object? (items.map field)) := by
  cases items with
  | nil => exact absent
  | cons x rest => exact object nofun fun _ => h (List.cons_ne_nil _ _)

lemma list {vs : List Typed} (hnil : vs = [] → lines = [])
    (h : vs ≠ [] → SaysFields levels level lines [(.string name, .list vs)]) :
    SaysField? levels level lines name (list? vs) := by
  cases vs with
  | nil =>
    rw [hnil rfl]
    exact absent
  | cons v rest => exact h (List.cons_ne_nil _ _)

end SaysField?

/-! ## Items -/

namespace SaysItems

variable {vs vs' : List Typed}

lemma nil : SaysItems levels level [] [] :=
  ⟨[], [], .nil, .nil, .nil⟩

lemma append (h : SaysItems levels level lines vs) (h' : SaysItems levels level lines' vs') :
    SaysItems levels level (lines ++ lines') (vs ++ vs') := by
  obtain ⟨ts, nodes, hgroup, hnodes, hsaid⟩ := h
  obtain ⟨ts', nodes', hgroup', hnodes', hsaid'⟩ := h'
  exact ⟨ts ++ ts', nodes ++ nodes', hgroup.append hgroup', hnodes.append hnodes',
    List.rel_append hsaid hsaid'⟩

lemma written {w s : List Char} {plain : Bool} (h : Written w plain s)
    (htext : plain = true → resolve s = .text) :
    SaysItems (levels + 1) level [⟨level, '-' :: ' ' :: w⟩] [.string (String.ofList s)] :=
  ⟨_, _, .scalarItem h, (Whole.scalar plain s).item, .cons (.text htext) .nil⟩

/-- A string in the form that is chosen for it. -/
lemma string {s : List Char} (h : Writable s) :
    SaysItems (levels + 1) level [⟨level, '-' :: ' ' :: Yaml.scalar s⟩]
      [.string (String.ofList s)] := by
  obtain ⟨plain, hwritten, htext⟩ := written_scalar h.quotable
  exact written hwritten htext

/-- An object whose first field stands behind the dash. -/
lemma object {fields : List (Typed × Typed)} (htext : text ≠ [])
    (h : SaysFields (levels + 1) (level + 1) (⟨level + 1, text⟩ :: lines) fields)
    (hne : fields ≠ []) (hapart : Typed.Apart fields) :
    SaysItems (levels + 2) level (⟨level, '-' :: ' ' :: text⟩ :: lines) [.object fields] := by
  obtain ⟨ts, entries, hgroup, hentries, hsaid⟩ := h
  have hts : ts ≠ [] := hentries.ne_nil fun h => hne (by simpa [h] using hsaid)
  exact ⟨_, _, hgroup.objectItem htext hts, (Whole.object hentries).item,
    .cons (.object hsaid hapart) .nil⟩

lemma flatMap {α : Type} {items : List α} {f : α → List Line} {g : α → List Typed}
    (h : ∀ x ∈ items, SaysItems levels level (f x) (g x)) :
    SaysItems levels level (items.flatMap f) (items.flatMap g) := by
  induction items with
  | nil => exact nil
  | cons x rest ih =>
    rw [List.flatMap_cons, List.flatMap_cons]
    exact (h x List.mem_cons_self).append (ih fun y hy => h y (List.mem_cons_of_mem _ hy))

lemma map {α : Type} {items : List α} {f : α → Line} {g : α → Typed}
    (h : ∀ x ∈ items, SaysItems levels level [f x] [g x]) :
    SaysItems levels level (items.map f) (items.map g) := by
  rw [List.map_eq_flatMap, List.map_eq_flatMap]
  exact flatMap h

end SaysItems

/-! ## Values -/

namespace SaysValue

lemma null : SaysValue (levels + 1) level [] [] .null :=
  ⟨[], _, .none level, .missing, .missing⟩

/-- A scalar on the line of its key, as a reader takes it. -/
lemma scalar {w s : List Char} {plain : Bool} (h : Written w plain s)
    (hv : Typed.ofScalar? none plain s = some v) : SaysValue (levels + 1) level (' ' :: w) [] v :=
  ⟨_, _, .scalar level h, .whole (Whole.scalar plain s), .scalar hv⟩

/-- A string that stands plain. -/
lemma plain {s : String} (h : Plain s.toList) (htext : resolve s.toList = .text) :
    SaysValue (levels + 1) level (' ' :: s.toList) [] (.string s) := by
  refine scalar (.plain h) ?_
  rw [Typed.ofScalar?_of_text fun _ => htext, String.ofList_toList]

/-- A string in the form that is chosen for it. -/
lemma string {s : String} (h : Writable s.toList) :
    SaysValue (levels + 1) level (' ' :: Yaml.scalar s.toList) [] (.string s) := by
  obtain ⟨plain, hwritten, htext⟩ := written_scalar h.quotable
  have hsaid : Says (levels + 1) (.scalar none none plain s.toList)
      (.string (String.ofList s.toList)) := .text htext
  rw [String.ofList_toList] at hsaid
  exact ⟨_, _, .scalar level hwritten, .whole (Whole.scalar plain s.toList), hsaid⟩

lemma flowList {items : List String} (h : ∀ s ∈ items, Writable s.toList) :
    SaysValue (levels + 2) level (' ' :: Text.flowList (items.map String.toList)) []
      (strings items) := by
  have hwritable : ∀ s ∈ items.map String.toList, Writable s := by simpa using h
  refine ⟨_, _, .flowList level hwritable, .whole (Whole.flowList _), .list ?_⟩
  rw [List.map_map, List.forall₂_map_left_iff, List.forall₂_map_right_iff, List.forall₂_same]
  intro s hs
  have hsaid : Says (levels + 1) (.scalar none none false s.toList)
      (.string (String.ofList s.toList)) := .text (by simp)
  rwa [String.ofList_toList] at hsaid

/-- The lines of a literal block. -/
lemma literal {content : List (List Char)} (h : ∀ l ∈ content, Flat l) :
    SaysValue (levels + 1) level (' ' :: Layout.blockMark content) (content.map (⟨level + 1, ·⟩))
      (.string (String.ofList (blockText content))) :=
  ⟨_, _, .literal level h, .whole (Whole.scalar false _), .text (by simp)⟩

/-- An object below its key. -/
lemma object {fields : List (Typed × Typed)}
    (h : SaysFields (levels + 1) (level + 1) lines fields) (hne : fields ≠ [])
    (hapart : Typed.Apart fields) : SaysValue (levels + 2) level [] lines (.object fields) := by
  obtain ⟨ts, entries, hgroup, hentries, hsaid⟩ := h
  have hts : ts ≠ [] := hentries.ne_nil fun h => hne (by simpa [h] using hsaid)
  exact ⟨_, _, .nested hgroup hts, .whole (Whole.object hentries), .object hsaid hapart⟩

lemma list {vs : List Typed} (h : SaysItems (levels + 1) (level + 1) lines vs) (hne : vs ≠ []) :
    SaysValue (levels + 2) level [] lines (.list vs) := by
  obtain ⟨ts, nodes, hgroup, hnodes, hsaid⟩ := h
  have hts : ts ≠ [] := hnodes.ne_nil fun h => hne (by simpa [h] using hsaid)
  exact ⟨_, _, .nested hgroup hts, .whole (Whole.list hnodes), .list hsaid⟩

/-- An object without fields leaves nothing behind its key. -/
lemma object_getD {fields : List (Typed × Typed)}
    (h : SaysFields (levels + 1) (level + 1) lines fields) (hapart : Typed.Apart fields)
    (hlines : fields = [] → lines = []) :
    SaysValue (levels + 2) level [] lines ((object? fields).getD .null) := by
  cases fields with
  | nil =>
    rw [hlines rfl]
    exact null
  | cons field rest => exact object h (List.cons_ne_nil _ _) hapart

/-- So does a list without items. -/
lemma list_getD {vs : List Typed} (h : SaysItems (levels + 1) (level + 1) lines vs)
    (hlines : vs = [] → lines = []) :
    SaysValue (levels + 2) level [] lines ((list? vs).getD .null) := by
  cases vs with
  | nil =>
    rw [hlines rfl]
    exact null
  | cons v rest => exact list h (List.cons_ne_nil _ _)

end SaysValue

/-! ## Documents -/

/-- A document whose lines are the fields of an object is read as that object. -/
theorem readTyped_write {fields : List (Typed × Typed)}
    (h : SaysFields (levels + 1) 0 lines fields) (hne : fields ≠ []) (hapart : Typed.Apart fields)
    (hlevels : levels + 1 ≤ levelLimit) :
    readTyped (String.ofList (write lines)) = some (.object fields) := by
  obtain ⟨ts, entries, hgroup, hentries, hsaid⟩ := h
  have hts : ts ≠ [] := hentries.ne_nil fun h => hne (by simpa [h] using hsaid)
  have hobject : Says (levels + 2) (.object none none entries) (.object fields) :=
    .object hsaid hapart
  rw [readTyped, String.toList_ofList, hgroup.ofText?_write hts]
  simp [(Whole.object hentries).ofTokens?_eq, hobject.typed?_eq (Nat.succ_le_succ hlevels)]

end Pipework.Yaml
