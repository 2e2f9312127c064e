/-!
# Values under names

Lists of values under names, in the order of the names: the fields of an object, the saved
pipelines, the entries of a folder.  `get?` is the view of such a list, and `get?_insert` and
`get?_erase` say what the two operations do to it.
-/

namespace Pipework.Named

variable {α : Type}

/-- The value under a name. -/
def get? (name : String) : List (String × α) → Option α
  | [] => none
  | (n, x) :: rest => if n = name then some x else get? name rest

/-- The values with one put under its name. -/
def insert (name : String) (x : α) : List (String × α) → List (String × α)
  | [] => [(name, x)]
  | (n, y) :: rest =>
    if name = n then (name, x) :: rest
    else if name < n then (name, x) :: (n, y) :: rest
    else (n, y) :: insert name x rest

/-- The values without the one under a name. -/
def erase (name : String) (values : List (String × α)) : List (String × α) :=
  values.filter (·.1 ≠ name)

/-- Only the value under its own name changes. -/
@[simp]
theorem get?_insert (m name : String) (x : α) (values : List (String × α)) :
    get? m (insert name x values) = if name = m then some x else get? m values := by
  induction values with
  | nil => simp [insert, get?]
  | cons entry rest ih =>
    obtain ⟨n, y⟩ := entry
    by_cases hn : name = n
    · subst hn
      by_cases hm : name = m <;> simp [insert, get?, hm]
    · by_cases hlt : name < n
      · simp [insert, get?, hn, hlt]
      · by_cases hm : n = m
        · subst hm
          simp [insert, get?, hn, hlt]
        · simp [insert, get?, hn, hlt, hm, ih]

/-- Only the value under the name goes away. -/
@[simp]
theorem get?_erase (m name : String) (values : List (String × α)) :
    get? m (erase name values) = if name = m then none else get? m values := by
  induction values with
  | nil => simp [erase, get?]
  | cons entry rest ih =>
    obtain ⟨n, y⟩ := entry
    by_cases hn : n = name
    · have shorter : erase name ((n, y) :: rest) = erase name rest := by simp [erase, hn]
      rw [shorter, ih]
      by_cases hm : name = m <;> simp [get?, hn, hm]
    · have kept : erase name ((n, y) :: rest) = (n, y) :: erase name rest := by simp [erase, hn]
      rw [kept, get?, get?, ih]
      by_cases hm : n = m
      · have other : name ≠ m := fun h => hn (hm.trans h.symm)
        simp [hm, other]
      · simp [hm]

/-- What is in a list after something was put in it. -/
theorem eq_or_mem_of_mem_insert {name : String} {x : α} {entry : String × α}
    {values : List (String × α)} (h : entry ∈ insert name x values) :
    entry = (name, x) ∨ entry ∈ values := by
  induction values with
  | nil => exact .inl (List.mem_singleton.1 h)
  | cons first rest ih =>
    rw [insert] at h
    split at h
    · exact (List.mem_cons.1 h).imp id (List.mem_cons_of_mem _)
    · split at h
      · exact List.mem_cons.1 h
      · rcases List.mem_cons.1 h with rfl | hmem
        · exact .inr List.mem_cons_self
        · exact (ih hmem).imp id (List.mem_cons_of_mem _)

end Pipework.Named
