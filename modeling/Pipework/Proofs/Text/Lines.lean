import Mathlib.Data.List.Basic
import Mathlib.Data.List.TakeWhile
import Mathlib.Tactic.Lemma
import Mathlib.Tactic.Tauto
import Pipework.Text.Lines
import Pipework.Text.Space

/-!
# Lines written and read

A text whose lines each end with a line feed has those lines, but for a carriage return that stands
right before the line feed (`lines_flatMap`).  White space that is trimmed away makes no difference
to what stands in front of it: `trim_append_cons` and `trimEnd_append_cons` say where trimming ends.
What is searched for is not found in front of the first place where it could begin
(`cut?_append`, `before_append`).
-/

namespace Pipework.Text

/-! ## Lines -/

/-- A line without the carriage return at its end. -/
def dropReturn (line : List Char) : List Char :=
  if line.getLast? = some '\r' then line.dropLast else line

lemma dropReturn_cons {c : Char} {line : List Char} (h : line ≠ [] ∨ c ≠ '\r') :
    dropReturn (c :: line) = c :: dropReturn line := by
  cases line with
  | nil => simpa [dropReturn] using h
  | cons d rest =>
    unfold dropReturn
    rw [List.getLast?_cons_cons]
    split <;> rfl

lemma dropReturn_append {line : List Char} (hne : line ≠ []) (before : List Char) :
    dropReturn (before ++ line) = before ++ dropReturn line := by
  induction before with
  | nil => rfl
  | cons c before ih =>
    rw [List.cons_append, dropReturn_cons (.inl (by simp [hne])), ih, List.cons_append]

lemma mem_of_mem_dropReturn {c : Char} {line : List Char} (h : c ∈ dropReturn line) : c ∈ line := by
  unfold dropReturn at h
  split at h
  · exact List.dropLast_subset _ h
  · exact h

/-- A line up to its line feed is the first line of the text. -/
lemma lines_append_newline {line : List Char} (h : '\n' ∉ line) (rest : List Char) :
    lines (line ++ '\n' :: rest) = dropReturn line :: lines rest := by
  induction line with
  | nil => rfl
  | cons c line ih =>
    rw [List.mem_cons, not_or] at h
    obtain ⟨hc, hline⟩ := h
    by_cases hreturn : c = '\r' ∧ line = []
    · obtain ⟨rfl, rfl⟩ := hreturn
      rfl
    · have hdrop : dropReturn (c :: line) = c :: dropReturn line :=
        dropReturn_cons (by tauto)
      have hcr : ∀ rest', c = '\r' → line ++ '\n' :: rest ≠ '\n' :: rest' := by
        intro rest' hc' heq
        cases line with
        | nil => exact hreturn ⟨hc', rfl⟩
        | cons d line => simp_all
      rw [List.cons_append, lines, ih hline, consLine, hdrop]
      · exact fun heq => hc heq.symm
      · exact hcr

/-- Lines that are written one after the other are read as they are, without the carriage returns at
their ends. -/
theorem lines_flatMap {written : List (List Char)} (h : ∀ line ∈ written, '\n' ∉ line) :
    lines (written.flatMap (· ++ ['\n'])) = written.map dropReturn := by
  induction written with
  | nil => rfl
  | cons line rest ih =>
    rw [List.flatMap_cons, List.append_assoc, List.singleton_append,
      lines_append_newline (h line List.mem_cons_self),
      ih fun l hl => h l (List.mem_cons_of_mem _ hl), List.map_cons]

/-! ## Trimming -/

lemma dropEndWhile_append_cons {p : Char → Bool} {c : Char} (hc : p c = false) (s t : List Char) :
    dropEndWhile p (s ++ c :: t) = s ++ c :: dropEndWhile p t := by
  induction s with
  | nil =>
    rw [List.nil_append, List.nil_append, dropEndWhile]
    split <;> simp_all
  | cons d s ih =>
    rw [List.cons_append, dropEndWhile, ih]
    cases s <;> rfl

/-- Trimming the end stops at what is no white space. -/
lemma trimEnd_append_cons {c : Char} (hc : isSpace c = false) (s t : List Char) :
    trimEnd (s ++ c :: t) = s ++ c :: trimEnd t :=
  dropEndWhile_append_cons hc s t

lemma trimEnd_cons {c : Char} (hc : isSpace c = false) (t : List Char) :
    trimEnd (c :: t) = c :: trimEnd t :=
  trimEnd_append_cons hc [] t

/-- What does not begin with white space is only trimmed at its end. -/
lemma trim_cons {c : Char} (hc : isSpace c = false) (t : List Char) :
    trim (c :: t) = c :: trimEnd t := by
  rw [trim, trimStart, List.dropWhile_cons_of_neg (by simp [hc]), trimEnd_cons hc]

/-- White space in front is trimmed away. -/
lemma trim_append_cons {c : Char} (hc : isSpace c = false) {front : List Char}
    (hfront : ∀ d ∈ front, isSpace d = true) (t : List Char) :
    trim (front ++ c :: t) = c :: trimEnd t := by
  rw [trim, trimStart, List.dropWhile_append_of_pos hfront, List.dropWhile_cons_of_neg (by simp [hc]),
    trimEnd_cons hc]

/-- Nothing is left of a text of white space. -/
lemma trim_eq_nil_of_isBlank {s : List Char} (h : isBlank s = true) : trim s = [] := by
  rw [trim, trimStart, List.dropWhile_eq_nil_iff.2 (List.all_eq_true.1 h)]
  rfl

/-- What is left of a text begins where its first white space ends. -/
lemma exists_of_trim_ne_nil {s : List Char} (h : trim s ≠ []) :
    ∃ front c t, s = front ++ c :: t ∧ (∀ d ∈ front, isSpace d = true) ∧ isSpace c = false := by
  cases hstart : s.dropWhile isSpace with
  | nil =>
    rw [trim, trimStart, hstart] at h
    exact absurd rfl h
  | cons c t =>
    have hc := List.head?_dropWhile_not isSpace s
    rw [hstart, List.head?_cons] at hc
    refine ⟨s.takeWhile isSpace, c, t, ?_, fun d hd => List.mem_takeWhile_imp hd, by simpa using hc⟩
    rw [← hstart, List.takeWhile_append_dropWhile]

lemma dropEndWhile_isPrefix (p : Char → Bool) (s : List Char) : dropEndWhile p s <+: s := by
  induction s with
  | nil => exact List.prefix_rfl
  | cons c rest ih =>
    unfold dropEndWhile
    cases hrest : dropEndWhile p rest with
    | nil =>
      simp only
      split
      · exact List.nil_prefix
      · exact ⟨rest, rfl⟩
    | cons d kept =>
      rw [hrest] at ih
      exact List.cons_prefix_cons.2 ⟨rfl, ih⟩

lemma trimEnd_isPrefix (s : List Char) : trimEnd s <+: s := dropEndWhile_isPrefix isSpace s

lemma dropEndWhile_append {p : Char → Bool} {t : List Char} (h : ∀ c ∈ t, p c = true)
    (s : List Char) : dropEndWhile p (s ++ t) = dropEndWhile p s := by
  induction s with
  | nil =>
    induction t with
    | nil => rfl
    | cons c t ih =>
      have ht := ih fun d hd => h d (List.mem_cons_of_mem _ hd)
      rw [List.nil_append] at ht ⊢
      unfold dropEndWhile
      rw [ht]
      simp [dropEndWhile, h c List.mem_cons_self]
  | cons c s ih => rw [List.cons_append, dropEndWhile, ih, dropEndWhile]

lemma dropEndWhile_eq_self {p : Char → Bool} {s : List Char} (h : ∀ c ∈ s, p c = false) :
    dropEndWhile p s = s := by
  induction s with
  | nil => rfl
  | cons c rest ih =>
    have hrest := ih fun d hd => h d (List.mem_cons_of_mem _ hd)
    have hcons := dropEndWhile_append_cons (h c List.mem_cons_self) [] rest
    rwa [hrest] at hcons

lemma dropEndWhile_dropEndWhile (p : Char → Bool) (s : List Char) :
    dropEndWhile p (dropEndWhile p s) = dropEndWhile p s := by
  induction s with
  | nil => rfl
  | cons c rest ih =>
    rw [dropEndWhile]
    cases hrest : dropEndWhile p rest with
    | nil => by_cases hc : p c = true <;> simp [dropEndWhile, hc]
    | cons d kept =>
      rw [hrest] at ih
      simp only [dropEndWhile] at ih ⊢
      rw [ih]

/-- A text without white space is trimmed already. -/
lemma trim_eq_self {s : List Char} (h : ∀ c ∈ s, isSpace c = false) : trim s = s := by
  cases s with
  | nil => rfl
  | cons c rest =>
    rw [trim_cons (h c List.mem_cons_self), trimEnd,
      dropEndWhile_eq_self fun d hd => h d (List.mem_cons_of_mem _ hd)]

/-- A text that is trimmed already begins with something else than white space. -/
lemma exists_cons_of_trim_eq_self {s : List Char} (hne : s ≠ []) (h : trim s = s) :
    ∃ c t, s = c :: t ∧ isSpace c = false ∧ trimEnd t = t := by
  obtain ⟨c, t, rfl⟩ := List.exists_cons_of_ne_nil hne
  have hc : isSpace c = false := by
    by_contra hspace
    rw [Bool.not_eq_false] at hspace
    have hle : (trim (c :: t)).length ≤ t.length := by
      rw [trim, trimStart, List.dropWhile_cons_of_pos hspace]
      exact Nat.le_trans (trimEnd_isPrefix _).length_le (List.dropWhile_suffix _).length_le
    rw [h, List.length_cons] at hle
    omega
  rw [trim_cons hc, List.cons.injEq] at h
  exact ⟨c, t, rfl, hc, h.2⟩

/-- Trimming once is enough. -/
lemma trim_trim (s : List Char) : trim (trim s) = trim s := by
  unfold trim
  cases hstart : trimStart s with
  | nil => rfl
  | cons c t =>
    have hc : isSpace c = false := by
      have hhead := List.head?_dropWhile_not isSpace s
      rw [← trimStart, hstart] at hhead
      simpa using hhead
    rw [trimEnd_cons hc, trimStart, List.dropWhile_cons_of_neg (by simp [hc]), trimEnd_cons hc,
      trimEnd, trimEnd, dropEndWhile_dropEndWhile]

/-- A carriage return at the end is white space. -/
lemma trimEnd_dropReturn (s : List Char) : trimEnd (dropReturn s) = trimEnd s := by
  induction s with
  | nil => rfl
  | cons c rest ih =>
    by_cases hreturn : c = '\r' ∧ rest = []
    · obtain ⟨rfl, rfl⟩ := hreturn
      rfl
    · rw [dropReturn_cons (by tauto), trimEnd, dropEndWhile]
      rw [trimEnd, trimEnd] at ih
      rw [ih, trimEnd, dropEndWhile]

/-! ## Searching -/

lemma isPrefixOf?_cons_of_ne {x c : Char} (h : c ≠ x) (sep rest : List Char) :
    (x :: sep).isPrefixOf? (c :: rest) = none := by
  simp [List.isPrefixOf?, Ne.symm h]

/-- Nothing is found in front of the first place where it could begin. -/
lemma cut?_append {x : Char} {s : List Char} (h : x ∉ s) (sep t : List Char) :
    cut? (x :: sep) (s ++ t) = (cut? (x :: sep) t).map fun (b, a) => (s ++ b, a) := by
  induction s with
  | nil => simp
  | cons c s ih =>
    rw [List.mem_cons, not_or] at h
    obtain ⟨hc, hs⟩ := h
    rw [List.cons_append, cut?, isPrefixOf?_cons_of_ne (Ne.symm hc), ih hs]
    cases cut? (x :: sep) t <;> rfl

lemma cut?_eq_none {x : Char} {s : List Char} (h : x ∉ s) (sep : List Char) :
    cut? (x :: sep) s = none := by
  have hcut := cut?_append h sep []
  rwa [List.append_nil] at hcut

/-- A single character is found at its first place. -/
lemma cut?_singleton {x : Char} {s : List Char} (h : x ∉ s) (t : List Char) :
    cut? [x] (s ++ x :: t) = some (s, t) := by
  have hhere : cut? [x] (x :: t) = some ([], t) := by simp [cut?, List.isPrefixOf?]
  rw [cut?_append h, hhere]
  simp

lemma before_append {x : Char} {s : List Char} (h : x ∉ s) (sep t : List Char) :
    before (x :: sep) (s ++ t) = s ++ before (x :: sep) t := by
  unfold before
  rw [cut?_append h]
  cases cut? (x :: sep) t <;> rfl

/-- What occurs in a text is found. -/
lemma contains_append {sep : List Char} (hne : sep ≠ []) (front back : List Char) :
    contains sep (front ++ (sep ++ back)) = true := by
  induction front with
  | nil =>
    obtain ⟨x, sep, rfl⟩ := List.exists_cons_of_ne_nil hne
    have hhere : (x :: sep).isPrefixOf? (x :: (sep ++ back)) = some back :=
      List.isPrefixOf?_eq_some_iff_append_eq.2 rfl
    rw [List.nil_append, List.cons_append, contains, cut?, hhere]
    rfl
  | cons c front ih =>
    rw [contains] at ih
    rw [List.cons_append, contains, cut?]
    cases sep.isPrefixOf? (c :: (front ++ (sep ++ back))) with
    | some after => rfl
    | none => rw [Option.isSome_map, ih]

/-- What begins like `sep` and goes on otherwise is passed over. -/
lemma before_cons_cons {x y c : Char} (h : c ≠ y) (sep s : List Char) :
    before (x :: y :: sep) (x :: c :: s) = x :: before (x :: y :: sep) (c :: s) := by
  have hnone : (x :: y :: sep).isPrefixOf? (x :: c :: s) = none := by
    simp [List.isPrefixOf?, Ne.symm h]
  unfold before
  rw [cut?, hnone]
  cases cut? (x :: y :: sep) (c :: s) <;> rfl

lemma before_isPrefix (sep s : List Char) : before sep s <+: s := by
  induction s with
  | nil => by_cases h : sep.isEmpty <;> simp [before, cut?, h]
  | cons c rest ih =>
    unfold before cut?
    cases hsep : sep.isPrefixOf? (c :: rest) with
    | some after => exact List.nil_prefix
    | none =>
      unfold before at ih
      cases hcut : cut? sep rest with
      | none => simp
      | some found =>
        rw [hcut] at ih
        exact List.cons_prefix_cons.2 ⟨rfl, ih⟩

end Pipework.Text
