import Mathlib.Data.List.Basic
import Mathlib.Tactic.Lemma
import Pipework.Disk.Path
import Pipework.Proofs.Text.Fields

/-!
# Paths and their names

What joining a path with a name and taking its last name off do to the names of the path:
`names_join` and `names_parent?`.  Both keep the beginning of the path.  Names that are empty or one
dot are idle: they lead nowhere.
-/

namespace Pipework

namespace Disk

/-! ## Names -/

/-- A name that leads nowhere. -/
def IsIdle (name : String) : Prop := name = "" ∨ name = "."

instance (name : String) : Decidable (IsIdle name) :=
  inferInstanceAs (Decidable (name = "" ∨ name = "."))

lemma names_append (p q : String) : names (p ++ "/" ++ q) = names p ++ names q := by
  have hlist : (p ++ "/" ++ q).toList = p.toList ++ '/' :: q.toList := by
    rw [String.toList_append, String.toList_append, List.append_assoc]
    rfl
  rw [names, hlist, Text.fields_append, List.map_append]
  rfl

lemma names_eq_singleton {name : String} (h : '/' ∉ name.toList) : names name = [name] := by
  rw [names, Text.fields_eq_singleton h, List.map_singleton, String.ofList_toList]

lemma slash_notMem_of_mem_names {path name : String} (h : name ∈ names path) :
    '/' ∉ name.toList := by
  obtain ⟨field, hfield, rfl⟩ := List.mem_map.1 h
  rw [String.toList_ofList]
  exact Text.sep_notMem_of_mem_fields hfield

lemma mem_names_iff {path : String} {c : Char} (hc : c ≠ '/') :
    (∃ name ∈ names path, c ∈ name.toList) ↔ c ∈ path.toList := by
  rw [← Text.mem_fields_iff hc, names]
  simp

/-- The names of a path put together again. -/
lemma names_intercalate {l : List String} (hne : l ≠ []) (h : ∀ name ∈ l, '/' ∉ name.toList) :
    names (String.intercalate "/" l) = l := by
  induction l with
  | nil => contradiction
  | cons name rest ih =>
    have hname := names_eq_singleton (h name List.mem_cons_self)
    cases rest with
    | nil => exact hname
    | cons next rest =>
      rw [String.intercalate_cons_cons, names_append, hname,
        ih (List.cons_ne_nil _ _) fun x hx => h x (List.mem_cons_of_mem _ hx),
        List.singleton_append]

lemma isAbsolute_iff {path : String} :
    isAbsolute path = true ↔ ∃ rest, rest ≠ [] ∧ names path = "" :: rest := by
  rw [isAbsolute, names, beq_iff_eq]
  cases path.toList with
  | nil => simp [Text.fields]
  | cons c s =>
    by_cases hc : c = '/'
    · simp [hc, Text.fields, Text.fields_ne_nil]
    · obtain ⟨first, rest, -, hcons⟩ := Text.fields_cons_of_ne hc s
      rw [hcons]
      simp [hc]

/-! ## Names in folders -/

/-- A name in a folder stands behind the names of the folder. -/
lemma names_join {folder : String} (hne : folder ≠ "") :
    ∃ front, (names folder = front ∨ names folder = front ++ [""]) ∧
      ∀ name, '/' ∉ name.toList → names (join folder name) = front ++ [name] := by
  have hnonempty : folder.isEmpty = false := by simpa using hne
  unfold join
  rw [hnonempty, Bool.false_or]
  split
  case isTrue hslash =>
    obtain ⟨before, hbefore⟩ := List.getLast?_eq_some_iff.1 (beq_iff_eq.1 hslash)
    have hfolder : folder = String.ofList before ++ "/" ++ "" := by
      apply String.toList_injective
      simp [hbefore]
    refine ⟨names (String.ofList before), .inr ?_, fun name hname => ?_⟩
    · rw [hfolder, names_append]
      rfl
    · have hjoin : folder ++ name = String.ofList before ++ "/" ++ name := by
        apply String.toList_injective
        simp [hbefore]
      rw [hjoin, names_append, names_eq_singleton hname]
  case isFalse =>
    exact ⟨names folder, .inl rfl, fun name hname => by rw [names_append, names_eq_singleton hname]⟩

lemma join_ne_empty {folder : String} (hne : folder ≠ "") (name : String) :
    join folder name ≠ "" := by
  unfold join
  split <;> simp [hne]

lemma isAbsolute_join {folder : String} (hne : folder ≠ "") (name : String) :
    isAbsolute (join folder name) = isAbsolute folder := by
  have hlist : folder.toList ≠ [] := by simpa using hne
  obtain ⟨c, rest, heq⟩ := List.exists_cons_of_ne_nil hlist
  unfold isAbsolute join
  split <;> simp [heq]

lemma mem_join_iff {folder name : String} {c : Char} (hc : c ≠ '/') :
    c ∈ (join folder name).toList ↔ c ∈ folder.toList ∨ c ∈ name.toList := by
  unfold join
  split <;> simp [hc]

/-! ## The path without its last name -/

lemma dropIdle_append (absolute : Bool) (l : List String) :
    ∃ idle, l = idle ++ dropIdle absolute l ∧ ∀ name ∈ idle, IsIdle name := by
  fun_induction dropIdle absolute l with
  | case1 => exact ⟨[], by simp⟩
  | case2 first h =>
    refine ⟨[first], by simp, List.forall_mem_singleton.2 ?_⟩
    simp only [Bool.or_eq_true, Bool.and_eq_true, decide_eq_true_eq] at h
    exact h.imp id And.left
  | case3 first h => exact ⟨[], by simp⟩
  | case4 name rest _ h ih =>
    obtain ⟨idle, heq, hidle⟩ := ih
    simp only [Bool.or_eq_true, decide_eq_true_eq] at h
    exact ⟨name :: idle, by rw [List.cons_append, ← heq], List.forall_mem_cons.2 ⟨h, hidle⟩⟩
  | case5 name rest _ h => exact ⟨[], by simp⟩

lemma dropIdle_eq_cons {absolute : Bool} {l above : List String} {last : String}
    (h : dropIdle absolute l = last :: above) : last ≠ "" ∧ (last = "." → above = []) := by
  fun_induction dropIdle absolute l with
  | case1 => cases h
  | case2 => cases h
  | case3 first hfirst =>
    obtain ⟨rfl, rfl⟩ := List.cons.inj h
    exact ⟨fun heq => hfirst (by simp [heq]), fun _ => rfl⟩
  | case4 name rest _ _ ih => exact ih h
  | case5 name rest _ hname =>
    obtain ⟨rfl, rfl⟩ := List.cons.inj h
    exact ⟨fun heq => hname (by simp [heq]), fun heq => absurd (by simp [heq]) hname⟩

/-- What is above the last name of a relative path is relative. -/
lemma isAbsolute_eq_false {path parent : String} {front rest : List String}
    (hpath : isAbsolute path = false) (hnames : names path = front ++ rest) (hrest : rest ≠ [])
    (hparent : names parent = front ∨ names parent = front ++ [""])
    (hfront : front = [] → parent = "") : isAbsolute parent = false := by
  rw [← Bool.not_eq_true]
  intro habsolute
  obtain ⟨behind, hbehind, heq⟩ := isAbsolute_iff.1 habsolute
  cases front with
  | nil =>
    rw [hfront rfl] at habsolute
    cases habsolute
  | cons first front =>
    have hfirst : first = "" := by
      rcases hparent with h | h
      · exact (List.cons.inj (h.symm.trans heq)).1
      · exact (List.cons.inj (h.symm.trans heq)).1
    have habove : isAbsolute path = true :=
      isAbsolute_iff.2 ⟨front ++ rest, by simp [hrest], by rw [hnames, hfirst, List.cons_append]⟩
    rw [hpath] at habove
    cases habove

/-- The names of a path: those of the path above it, the last one, and idle names in between and
behind. -/
structure ParentOf (path parent : String) (front between : List String) (last : String)
    (behind : List String) : Prop where
  names_eq : names path = front ++ between ++ last :: behind
  names_parent : names parent = front ∨ names parent = front ++ [""]
  between_idle : ∀ name ∈ between, IsIdle name
  behind_idle : ∀ name ∈ behind, IsIdle name
  last_ne : last ≠ ""
  front_idle : last = "." → ∀ name ∈ front ++ between, IsIdle name
  absolute_eq : isAbsolute parent = isAbsolute path

/-- The characters of the path above are those of the path. -/
lemma ParentOf.mem_of_mem {path parent last : String} {front between behind : List String}
    (h : ParentOf path parent front between last behind) {c : Char} (hc : c ≠ '/')
    (hmem : c ∈ parent.toList) : c ∈ path.toList := by
  obtain ⟨name, hname, hin⟩ := (mem_names_iff hc).2 hmem
  have hfront : name ∈ front := by
    rcases h.names_parent with heq | heq
    · rwa [heq] at hname
    · rw [heq, List.mem_append, List.mem_singleton] at hname
      refine hname.resolve_right ?_
      rintro rfl
      simp at hin
  refine (mem_names_iff hc).1 ⟨name, ?_, hin⟩
  rw [h.names_eq]
  exact List.mem_append_left _ (List.mem_append_left _ hfront)

/-- The names in front of the last one that counts, without the idle ones at their end. -/
lemma exists_front {absolute : Bool} {l above : List String} {last : String}
    (h : dropIdle absolute l.reverse = last :: above) :
    ∃ between behind, l = (dropIdle absolute above).reverse ++ between ++ last :: behind ∧
      (∀ name ∈ between, IsIdle name) ∧ (∀ name ∈ behind, IsIdle name) := by
  obtain ⟨behind, hbehind, hbehindIdle⟩ := dropIdle_append absolute l.reverse
  obtain ⟨between, hbetween, hbetweenIdle⟩ := dropIdle_append absolute above
  refine ⟨between.reverse, behind.reverse, ?_, fun name hname => ?_, fun name hname => ?_⟩
  · have hl := congrArg List.reverse hbehind
    rw [h, List.reverse_reverse, List.reverse_append, List.reverse_cons] at hl
    have habove := congrArg List.reverse hbetween
    rw [List.reverse_append] at habove
    rw [hl, habove, List.append_assoc, List.append_assoc, List.append_assoc, List.singleton_append]
  · exact hbetweenIdle name (List.mem_reverse.1 hname)
  · exact hbehindIdle name (List.mem_reverse.1 hname)

/-- The names of some names put together, which are those names unless there are none. -/
lemma names_intercalate_or {kept l : List String} {path : String} (h : names path = l)
    (hkept : ∀ name ∈ kept, name ∈ l) :
    names (String.intercalate "/" kept) = kept ∨
      names (String.intercalate "/" kept) = kept ++ [""] := by
  by_cases hnil : kept = []
  · rw [hnil]
    exact .inr rfl
  · exact .inl (names_intercalate hnil fun name hname =>
      slash_notMem_of_mem_names (h ▸ hkept name hname))

/-- The path above is made of the names in front of the last one that counts, without the idle ones
at their end.  At the root of the machine an empty name stands in front of both. -/
lemma exists_of_parent? {path parent : String} (h : parent? path = some parent) :
    ∃ kept between last behind,
      (if isAbsolute path then (names path).tail else names path) =
          kept ++ between ++ last :: behind ∧
        (∀ name ∈ between, IsIdle name) ∧ (∀ name ∈ behind, IsIdle name) ∧ last ≠ "" ∧
        (last = "." → kept = []) ∧
        parent = if isAbsolute path then "/" ++ String.intercalate "/" kept
          else String.intercalate "/" kept := by
  simp only [parent?] at h
  split at h
  case h_1 => cases h
  case h_2 last above hlast =>
    obtain ⟨between, behind, hnames, hbetween, hbehind⟩ := exists_front hlast
    obtain ⟨hne, hdot⟩ := dropIdle_eq_cons hlast
    refine ⟨_, between, last, behind, hnames, hbetween, hbehind, hne, fun hl => ?_,
      (Option.some.inj h).symm⟩
    rw [hdot hl]
    rfl

/-- Taking the last name off keeps what is in front. -/
theorem names_parent? {path parent : String} (h : parent? path = some parent) :
    ∃ front between last behind, ParentOf path parent front between last behind := by
  obtain ⟨kept, between, last, behind, hnames, hbetween, hbehind, hne, hnone, rfl⟩ :=
    exists_of_parent? h
  cases habsolute : isAbsolute path with
  | true =>
    obtain ⟨rest, -, hrest⟩ := isAbsolute_iff.1 habsolute
    rw [habsolute, if_pos rfl, hrest, List.tail_cons] at hnames
    rw [hnames, ← List.cons_append, ← List.cons_append] at hrest
    refine ⟨"" :: kept, between, last, behind, hrest, ?_, hbetween, hbehind, hne, fun hl => ?_, ?_⟩
    · have hparent : names ("/" ++ String.intercalate "/" kept) =
          "" :: names (String.intercalate "/" kept) := names_append "" _
      rw [if_pos rfl, hparent]
      exact (names_intercalate_or hrest (by simp +contextual)).imp (congrArg _) (congrArg _)
    · rw [hnone hl]
      exact List.forall_mem_cons.2 ⟨.inl rfl, hbetween⟩
    · rw [habsolute]
      simp [isAbsolute]
  | false =>
    rw [habsolute, if_neg Bool.false_ne_true] at hnames
    have hparent : names (String.intercalate "/" kept) = kept ∨
        names (String.intercalate "/" kept) = kept ++ [""] :=
      names_intercalate_or hnames (by simp +contextual)
    refine ⟨kept, between, last, behind, hnames, hparent, hbetween, hbehind, hne, fun hl => ?_, ?_⟩
    · rw [hnone hl]
      exact hbetween
    · rw [habsolute]
      rw [List.append_assoc] at hnames
      refine isAbsolute_eq_false habsolute hnames (by simp) hparent ?_
      rintro rfl
      rfl

end Disk

end Pipework
