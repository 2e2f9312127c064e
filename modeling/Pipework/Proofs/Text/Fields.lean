import Mathlib.Data.List.Basic
import Mathlib.Tactic.Lemma
import Pipework.Text.Lines

/-!
# Fields between separators

The fields of a text hold its characters but for the separators (`mem_fields_iff`,
`sep_notMem_of_mem_fields`), and with the separators put back they are the text again
(`intercalate_fields`).
-/

namespace Pipework.Text

variable {sep : Char} {s : List Char}

lemma fields_ne_nil (sep : Char) (s : List Char) : fields sep s ≠ [] := by
  cases s with
  | nil => simp [fields]
  | cons c rest =>
    unfold fields
    split
    · simp
    · cases fields sep rest <;> simp [consLine]

lemma fields_cons_of_ne {c : Char} (hc : c ≠ sep) (s : List Char) :
    ∃ first rest, fields sep s = first :: rest ∧ fields sep (c :: s) = (c :: first) :: rest := by
  obtain ⟨first, rest, heq⟩ := List.exists_cons_of_ne_nil (fields_ne_nil sep s)
  exact ⟨first, rest, heq, by simp [fields, hc, heq, consLine]⟩

lemma fields_append (s t : List Char) :
    fields sep (s ++ sep :: t) = fields sep s ++ fields sep t := by
  induction s with
  | nil => simp [fields]
  | cons c s ih =>
    by_cases hc : c = sep
    · simp [fields, hc, ih]
    · obtain ⟨first, rest, heq, hcons⟩ := fields_cons_of_ne hc s
      rw [hcons, List.cons_append, fields, ih, heq]
      simp [hc, consLine]

lemma fields_eq_singleton (h : sep ∉ s) : fields sep s = [s] := by
  induction s with
  | nil => rfl
  | cons c s ih =>
    rw [List.mem_cons, not_or] at h
    simp [fields, Ne.symm h.1, ih h.2, consLine]

/-- The characters of a text other than the separator are those of its fields. -/
lemma mem_fields_iff {c : Char} (hc : c ≠ sep) :
    (∃ field ∈ fields sep s, c ∈ field) ↔ c ∈ s := by
  induction s with
  | nil => simp [fields]
  | cons d s ih =>
    by_cases hd : d = sep
    · simp [fields, hd, hc, ih]
    · obtain ⟨first, rest, heq, hcons⟩ := fields_cons_of_ne hd s
      rw [heq] at ih
      rw [hcons, List.mem_cons, ← ih]
      simp [or_assoc]

lemma sep_notMem_of_mem_fields {field : List Char} (h : field ∈ fields sep s) : sep ∉ field := by
  induction s generalizing field with
  | nil => simp_all [fields]
  | cons c s ih =>
    by_cases hc : c = sep
    · rw [fields, if_pos (beq_iff_eq.2 hc), List.mem_cons] at h
      rcases h with rfl | h
      · simp
      · exact ih h
    · obtain ⟨first, rest, heq, hcons⟩ := fields_cons_of_ne hc s
      rw [hcons, List.mem_cons] at h
      rw [heq] at ih
      rcases h with rfl | h
      · simp [Ne.symm hc, ih List.mem_cons_self]
      · exact ih (List.mem_cons_of_mem _ h)

/-! ## Fields put together -/

lemma intercalate_fields (sep : Char) (s : List Char) : [sep].intercalate (fields sep s) = s := by
  induction s with
  | nil => rfl
  | cons c s ih =>
    obtain ⟨first, rest, hs⟩ := List.exists_cons_of_ne_nil (fields_ne_nil sep s)
    by_cases hc : c = sep
    · rw [fields, if_pos (beq_iff_eq.2 hc), hs, List.intercalate_cons_cons, ← hs, ih, hc]
      rfl
    · obtain ⟨first, rest, heq, hcons⟩ := fields_cons_of_ne hc s
      rw [heq] at ih
      rw [hcons, ← ih]
      cases rest with
      | nil => simp
      | cons next rest => simp [List.intercalate_cons_cons]

lemma intercalate_concat {sep last : List Char} {front : List (List Char)} (h : front ≠ []) :
    sep.intercalate (front ++ [last]) = sep.intercalate front ++ sep ++ last := by
  induction front with
  | nil => contradiction
  | cons first front ih =>
    cases front with
    | nil => simp
    | cons next front =>
      have hback := ih (List.cons_ne_nil _ _)
      rw [List.cons_append] at hback
      rw [List.cons_append, List.cons_append, List.intercalate_cons_cons, hback,
        List.intercalate_cons_cons]
      simp only [List.append_assoc]

end Pipework.Text
