import Mathlib.Tactic.ByContra
import Mathlib.Tactic.Lemma
import Mathlib.Tactic.Tauto
import Pipework.Named

/-!
# Lists in the order of their names

`Named.Ordered` says that a list of values under names is in the strict order of its names, which is
how the fields of a value that was read stand.  Insertion keeps the order (`Ordered.insert`), and an
ordered list is determined by what `get?` finds in it (`Ordered.ext`): two ways to put the same
values under the same names give one list, whatever the order they are put in.

`collect` puts entries one after the other, the way a reader meets them, so that of two under one
name the later counts.  For entries whose names differ, `collect_perm` says that their order does
not matter.
-/

namespace Pipework.Named

variable {α β : Type}

/-- The names are in strictly ascending order. -/
def Ordered (values : List (String × α)) : Prop := (values.map (·.1)).Pairwise (· < ·)

/-- The entries put under their names one after the other. -/
def collect (entries : List (String × α)) : List (String × α) :=
  entries.foldl (fun values entry => insert entry.1 entry.2 values) []

/-! ## Looking up -/

lemma get?_eq_none_iff {name : String} {values : List (String × α)} :
    get? name values = none ↔ name ∉ values.map (·.1) := by
  induction values with
  | nil => simp [get?]
  | cons entry rest ih =>
    obtain ⟨n, x⟩ := entry
    by_cases h : n = name
    · simp [get?, h]
    · simp [get?, h, ih, Ne.symm h]

lemma mem_of_get?_eq_some {name : String} {x : α} {values : List (String × α)}
    (h : get? name values = some x) : (name, x) ∈ values := by
  induction values with
  | nil => simp [get?] at h
  | cons entry rest ih =>
    obtain ⟨n, y⟩ := entry
    by_cases hn : n = name
    · simp only [get?, hn, if_true, Option.some.injEq] at h
      simp [hn, h]
    · simp only [get?, hn, if_false] at h
      exact List.mem_cons_of_mem _ (ih h)

/-- Where no name stands twice, every entry is the one found under its name. -/
lemma get?_eq_some_of_mem {name : String} {x : α} {values : List (String × α)}
    (hnodup : (values.map (·.1)).Nodup) (h : (name, x) ∈ values) : get? name values = some x := by
  induction values with
  | nil => simp at h
  | cons entry rest ih =>
    obtain ⟨n, y⟩ := entry
    rw [List.map_cons, List.nodup_cons] at hnodup
    rcases List.mem_cons.1 h with heq | hmem
    · obtain ⟨rfl, rfl⟩ := Prod.mk.injEq .. ▸ heq
      simp [get?]
    · have hne : n ≠ name := by
        rintro rfl
        exact hnodup.1 (List.mem_map_of_mem (f := (·.1)) hmem)
      rw [get?, if_neg hne]
      exact ih hnodup.2 hmem

lemma nodup_of_names {values : List (String × α)} (h : (values.map (·.1)).Nodup) :
    values.Nodup :=
  (List.pairwise_map.1 h).imp fun hne heq => hne (congrArg _ heq)

/-- A function of the values leaves the names. -/
@[simp]
lemma names_map (f : α → β) (values : List (String × α)) :
    (values.map fun entry => (entry.1, f entry.2)).map (·.1) = values.map (·.1) := by
  rw [List.map_map]
  rfl

/-- Looking up goes through a function of the names and the values. -/
lemma get?_map_entries (f : String → α → β) (name : String) (values : List (String × α)) :
    get? name (values.map fun entry => (entry.1, f entry.1 entry.2)) =
      (get? name values).map (f name) := by
  induction values with
  | nil => rfl
  | cons entry rest ih =>
    obtain ⟨n, x⟩ := entry
    by_cases h : n = name
    · simp [get?, h]
    · simp [get?, h, ih]

/-- Looking up goes through a function of the values. -/
lemma get?_map (f : α → β) (name : String) (values : List (String × α)) :
    get? name (values.map fun entry => (entry.1, f entry.2)) = (get? name values).map f :=
  get?_map_entries (fun _ => f) name values

/-- Where no name stands twice, what is found among the entries with a property is what is found
among all of them, if it has the property. -/
lemma get?_filter {p : String × α → Bool} {name : String} {values : List (String × α)}
    (hnodup : (values.map (·.1)).Nodup) :
    get? name (values.filter p) = (get? name values).filter fun x => p (name, x) := by
  induction values with
  | nil => rfl
  | cons entry rest ih =>
    obtain ⟨n, x⟩ := entry
    rw [List.map_cons, List.nodup_cons] at hnodup
    have hrest := ih hnodup.2
    by_cases hp : p (n, x) = true
    · rw [List.filter_cons_of_pos hp]
      by_cases hn : n = name
      · subst hn
        simp [get?, Option.filter_some, hp]
      · simpa [get?, hn] using hrest
    · rw [List.filter_cons_of_neg hp, hrest]
      by_cases hn : n = name
      · subst hn
        simp [get?, Option.filter_some, hp, get?_eq_none_iff.2 hnodup.1]
      · simp [get?, hn]

/-! ## Order -/

lemma ordered_nil : Ordered ([] : List (String × α)) := List.Pairwise.nil

lemma ordered_cons {entry : String × α} {rest : List (String × α)} :
    Ordered (entry :: rest) ↔ (∀ n ∈ rest.map (·.1), entry.1 < n) ∧ Ordered rest := by
  rw [Ordered, List.map_cons, List.pairwise_cons, Ordered]

lemma Ordered.nodup {values : List (String × α)} (h : Ordered values) :
    (values.map (·.1)).Nodup :=
  List.Pairwise.imp (fun hlt => String.ne_of_lt hlt) h

lemma lt_of_not_lt {name n : String} (hlt : ¬name < n) (hne : name ≠ n) : n < name := by
  by_contra hc
  exact hne (String.le_antisymm (String.not_lt.1 hc) (String.not_lt.1 hlt))

lemma mem_names_insert {name n : String} {x : α} {values : List (String × α)} :
    n ∈ (insert name x values).map (·.1) ↔ n = name ∨ n ∈ values.map (·.1) := by
  induction values with
  | nil => simp [insert]
  | cons entry rest ih =>
    obtain ⟨m, y⟩ := entry
    by_cases hm : name = m
    · simp [insert, hm]
    · by_cases hlt : name < m
      · simp [insert, hm, hlt]
      · simp only [insert, hm, hlt, if_false, List.map_cons, List.mem_cons, ih]
        tauto

/-- Inserting goes through a function of the values. -/
lemma map_insert (f : α → β) (name : String) (x : α) (values : List (String × α)) :
    (insert name x values).map (fun entry => (entry.1, f entry.2)) =
      insert name (f x) (values.map fun entry => (entry.1, f entry.2)) := by
  induction values with
  | nil => rfl
  | cons entry rest ih =>
    obtain ⟨n, y⟩ := entry
    by_cases hn : name = n
    · simp [insert, hn]
    · by_cases hlt : name < n
      · simp [insert, hn, hlt]
      · simp [insert, hn, hlt, ih]

/-- A value under a name finds its place among ordered ones. -/
lemma Ordered.insert {values : List (String × α)} (h : Ordered values) (name : String) (x : α) :
    Ordered (Named.insert name x values) := by
  induction values with
  | nil => simp [Named.insert, Ordered]
  | cons entry rest ih =>
    obtain ⟨n, y⟩ := entry
    obtain ⟨hfirst, hrest⟩ := ordered_cons.1 h
    by_cases hn : name = n
    · rw [Named.insert, if_pos hn, ordered_cons]
      exact ⟨hn ▸ hfirst, hrest⟩
    · by_cases hlt : name < n
      · rw [Named.insert, if_neg hn, if_pos hlt, ordered_cons]
        refine ⟨fun m hm => ?_, h⟩
        rcases List.mem_cons.1 hm with rfl | hm
        · exact hlt
        · exact String.lt_trans hlt (hfirst m hm)
      · rw [Named.insert, if_neg hn, if_neg hlt, ordered_cons]
        refine ⟨fun m hm => ?_, ih hrest⟩
        rcases mem_names_insert.1 hm with rfl | hm
        · exact lt_of_not_lt hlt hn
        · exact hfirst m hm

lemma Ordered.filter {values : List (String × α)} (h : Ordered values) (p : String × α → Bool) :
    Ordered (values.filter p) :=
  List.Pairwise.sublist (List.filter_sublist.map _) h

lemma Ordered.erase {values : List (String × α)} (h : Ordered values) (name : String) :
    Ordered (Named.erase name values) :=
  h.filter _

/-- The order of the names does not depend on the values. -/
lemma Ordered.map {values : List (String × α)} (h : Ordered values) (f : String → α → β) :
    Ordered (values.map fun entry => (entry.1, f entry.1 entry.2)) := by
  rw [Ordered, List.map_map]
  exact h

/-- An ordered list is what can be looked up in it. -/
theorem Ordered.ext {values others : List (String × α)} (hv : Ordered values)
    (ho : Ordered others) (h : ∀ name, get? name values = get? name others) : values = others := by
  induction values generalizing others with
  | nil =>
    cases others with
    | nil => rfl
    | cons entry rest => simpa [get?] using h entry.1
  | cons entry rest ih =>
    cases others with
    | nil => simpa [get?] using h entry.1
    | cons entry' rest' =>
      obtain ⟨n, x⟩ := entry
      obtain ⟨n', x'⟩ := entry'
      obtain ⟨hfirst, hrest⟩ := ordered_cons.1 hv
      obtain ⟨hfirst', hrest'⟩ := ordered_cons.1 ho
      -- the least name of either list is a name of the other one
      have hmem : n ∈ n' :: rest'.map (·.1) := by
        by_contra hc
        have hnone : get? n ((n', x') :: rest') = none := get?_eq_none_iff.2 hc
        rw [← h n, get?, if_pos rfl] at hnone
        cases hnone
      have hmem' : n' ∈ n :: rest.map (·.1) := by
        by_contra hc
        have hnone : get? n' ((n, x) :: rest) = none := get?_eq_none_iff.2 hc
        rw [h n', get?, if_pos rfl] at hnone
        cases hnone
      have hname : n = n' := by
        rcases List.mem_cons.1 hmem with heq | hlt
        · exact heq
        · rcases List.mem_cons.1 hmem' with heq | hlt'
          · exact heq.symm
          · exact absurd (hfirst _ hlt') (String.lt_asymm (hfirst' _ hlt))
      subst hname
      have hvalue : x = x' := by simpa [get?] using h n
      have hrests : rest = rest' := by
        refine ih hrest hrest' fun name => ?_
        by_cases hn : n = name
        · subst hn
          rw [get?_eq_none_iff.2 fun hm => String.lt_irrefl n (hfirst n hm),
            get?_eq_none_iff.2 fun hm => String.lt_irrefl n (hfirst' n hm)]
        · simpa [get?, hn] using h name
      rw [hvalue, hrests]

/-- The part of an ordered list that stands under the names of another is that other one with the
values replaced. -/
lemma Ordered.filter_names {values more : List (String × α)} (hv : Ordered values)
    (hm : Ordered more) (h : ∀ name x, get? name values = some x → ∃ y, get? name more = some y) :
    (more.filter fun entry => (get? entry.1 values).isSome) =
      values.map fun entry => (entry.1, (get? entry.1 more).getD entry.2) := by
  refine (hm.filter _).ext (hv.map fun name x => (get? name more).getD x) fun name => ?_
  rw [get?_filter hm.nodup, get?_map_entries fun name x => (get? name more).getD x]
  cases hx : get? name values with
  | none => simp [hx]
  | some x =>
    obtain ⟨y, hy⟩ := h name x hx
    simp [hx, hy]

/-! ## Entries put one after the other -/

private lemma foldl_insert_ordered (entries : List (String × α)) {values : List (String × α)}
    (h : Ordered values) :
    Ordered (entries.foldl (fun values entry => insert entry.1 entry.2 values) values) := by
  induction entries generalizing values with
  | nil => exact h
  | cons entry rest ih => exact ih (h.insert entry.1 entry.2)

private lemma get?_foldl_insert {entries : List (String × α)} (values : List (String × α))
    (hnodup : (entries.map (·.1)).Nodup) (name : String) :
    get? name (entries.foldl (fun values entry => insert entry.1 entry.2 values) values) =
      (get? name entries).or (get? name values) := by
  induction entries generalizing values with
  | nil => simp [get?]
  | cons entry rest ih =>
    obtain ⟨n, x⟩ := entry
    rw [List.map_cons, List.nodup_cons] at hnodup
    rw [List.foldl_cons, ih _ hnodup.2, get?_insert, get?]
    by_cases hn : n = name
    · subst hn
      simp [get?_eq_none_iff.2 hnodup.1]
    · simp [hn]

lemma ordered_collect (entries : List (String × α)) : Ordered (collect entries) :=
  foldl_insert_ordered entries ordered_nil

lemma get?_collect {entries : List (String × α)} (hnodup : (entries.map (·.1)).Nodup)
    (name : String) : get? name (collect entries) = get? name entries := by
  rw [collect, get?_foldl_insert [] hnodup]
  cases get? name entries <;> rfl

/-- Collecting moves entries whose names differ, and does nothing else to them. -/
theorem perm_collect {entries : List (String × α)} (hnodup : (entries.map (·.1)).Nodup) :
    (collect entries).Perm entries := by
  have hnodup' := (ordered_collect entries).nodup
  refine (List.perm_ext_iff_of_nodup (nodup_of_names hnodup') (nodup_of_names hnodup)).2
    fun entry => ?_
  obtain ⟨name, x⟩ := entry
  constructor
  · intro h
    have hget := get?_eq_some_of_mem hnodup' h
    rw [get?_collect hnodup] at hget
    exact mem_of_get?_eq_some hget
  · intro h
    have hget := get?_eq_some_of_mem hnodup h
    rw [← get?_collect hnodup] at hget
    exact mem_of_get?_eq_some hget

lemma map_collect (f : α → β) (entries : List (String × α)) :
    (collect entries).map (fun entry => (entry.1, f entry.2)) =
      collect (entries.map fun entry => (entry.1, f entry.2)) := by
  have hfoldl : ∀ values : List (String × α),
      (entries.foldl (fun values entry => insert entry.1 entry.2 values) values).map
          (fun entry => (entry.1, f entry.2)) =
        (entries.map fun entry => (entry.1, f entry.2)).foldl
          (fun values entry => insert entry.1 entry.2 values)
          (values.map fun entry => (entry.1, f entry.2)) := by
    induction entries with
    | nil => exact fun _ => rfl
    | cons entry rest ih =>
      intro values
      rw [List.foldl_cons, ih, map_insert, List.map_cons, List.foldl_cons]
  exact hfoldl []

/-- Ordered entries are collected as they stand. -/
lemma Ordered.collect_eq {entries : List (String × α)} (h : Ordered entries) :
    collect entries = entries :=
  (ordered_collect entries).ext h fun name => get?_collect h.nodup name

end Pipework.Named
