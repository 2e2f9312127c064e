import Mathlib.Data.List.Infix
import Pipework.Proofs.Text.Fields
import Pipework.Proofs.Text.Lines

/-!
# Texts with other lines

What the lines of a text are where another line stands in the place of one of them (`setLine`), and
what is found in lines that are written one after the other (`contains_ended`).
-/

namespace Pipework.Text

/-- Lines, each with a line feed behind it. -/
def ended (written : List (List Char)) : List Char := written.flatMap (· ++ ['\n'])

/-- The text with `new` in the place of its line at index `n`, counted from zero.  The line feeds of
the text stay where they are. -/
def setLine (n : Nat) (new text : List Char) : List Char :=
  ['\n'].intercalate ((fields '\n' text).set n new)

/-! ## Lines -/

lemma ended_cons (line : List Char) (rest : List (List Char)) :
    ended (line :: rest) = line ++ '\n' :: ended rest := by
  rw [ended, List.flatMap_cons, List.append_assoc]
  rfl

lemma ended_append (front back : List (List Char)) :
    ended (front ++ back) = ended front ++ ended back := List.flatMap_append ..

/-- Lines in front of a text are its first lines. -/
lemma lines_ended_append {written : List (List Char)} (h : ∀ line ∈ written, '\n' ∉ line)
    (rest : List Char) : lines (ended written ++ rest) = written.map dropReturn ++ lines rest := by
  induction written with
  | nil => rfl
  | cons line written ih =>
    rw [List.forall_mem_cons] at h
    rw [ended_cons, List.append_assoc, List.cons_append, lines_append_newline h.1, ih h.2,
      List.map_cons, List.cons_append]

/-- A text without line feeds is one line, unless it is empty. -/
lemma lines_of_notMem {s : List Char} (h : '\n' ∉ s) : lines s = if s = [] then [] else [s] := by
  induction s with
  | nil => rfl
  | cons c rest ih =>
    rw [List.mem_cons, not_or] at h
    have hcr : ∀ rest', c = '\r' → rest ≠ '\n' :: rest' := by
      rintro rest' - rfl
      exact h.2 List.mem_cons_self
    rw [lines, ih h.2]
    · cases rest <;> simp [consLine]
    · exact fun heq => h.1 heq.symm
    · exact hcr

lemma intercalate_append_cons (front : List (List Char)) (line : List Char)
    (back : List (List Char)) :
    ['\n'].intercalate (front ++ line :: back) =
      ended front ++ ['\n'].intercalate (line :: back) := by
  induction front with
  | nil => rfl
  | cons first front ih =>
    rw [ended_cons, List.append_assoc, List.cons_append, List.cons_append, ← ih]
    cases front <;> simp [List.intercalate_cons_cons]

/-- The lines of fields that are put together with line feeds. -/
lemma lines_intercalate {front : List (List Char)} (hfront : ∀ line ∈ front, '\n' ∉ line)
    (line : List Char) (back : List (List Char)) :
    lines (['\n'].intercalate (front ++ line :: back)) =
      front.map dropReturn ++ lines (['\n'].intercalate (line :: back)) := by
  rw [intercalate_append_cons, lines_ended_append hfront]

lemma length_lines_le (text : List Char) : (lines text).length ≤ (fields '\n' text).length := by
  have hfeed : ∀ line ∈ fields '\n' text, '\n' ∉ line := fun line => sep_notMem_of_mem_fields
  rcases List.eq_nil_or_concat (fields '\n' text) with hnil | ⟨front, last, hfields⟩
  · exact absurd hnil (fields_ne_nil _ _)
  · rw [List.concat_eq_append] at hfields
    rw [hfields, List.forall_mem_append, List.forall_mem_singleton] at hfeed
    have hlines : lines text = front.map dropReturn ++ lines last := by
      rw [← intercalate_fields '\n' text, hfields, lines_intercalate hfeed.1,
        List.intercalate_singleton]
    rw [hlines, hfields, lines_of_notMem hfeed.2]
    split <;> simp

/-- Where a field is replaced the lines in front of it and behind it stay. -/
lemma lines_replaced {front : List (List Char)} (hfront : ∀ line ∈ front, '\n' ∉ line)
    {old new : List Char} (hold : '\n' ∉ old) (hnew : '\n' ∉ new) (back : List (List Char)) :
    let before := lines (['\n'].intercalate (front ++ old :: back))
    ∃ middle, lines (['\n'].intercalate (front ++ new :: back)) =
        before.take front.length ++ (middle ++ before.drop (front.length + 1)) ∧
      (middle = [dropReturn new] ∨ middle = lines new ∧ before.drop (front.length + 1) = []) := by
  intro before
  have hlength : (front.map dropReturn).length = front.length := List.length_map ..
  have hbefore : before = front.map dropReturn ++ lines (['\n'].intercalate (old :: back)) :=
    lines_intercalate hfront old back
  have htake : before.take front.length = front.map dropReturn := by
    rw [hbefore, List.take_left' hlength]
  have hdrop : before.drop (front.length + 1) =
      (lines (['\n'].intercalate (old :: back))).drop 1 := by
    rw [hbefore, ← List.drop_drop, List.drop_left' hlength]
  rw [htake, hdrop, lines_intercalate hfront]
  cases back with
  | nil =>
    rw [List.intercalate_singleton, List.intercalate_singleton, lines_of_notMem hold]
    refine ⟨lines new, ?_, .inr ⟨rfl, ?_⟩⟩ <;> split <;> simp
  | cons next back =>
    simp only [List.intercalate_cons_cons, List.append_assoc, List.singleton_append,
      lines_append_newline hold, lines_append_newline hnew, List.drop_one, List.tail_cons]
    exact ⟨[dropReturn new], rfl, .inl rfl⟩

/-- Where one line is replaced the others stay.  Only a last line can vanish. -/
theorem lines_setLine {text : List Char} {n : Nat} (hn : n < (lines text).length)
    {new : List Char} (hnew : '\n' ∉ new) :
    ∃ middle, lines (setLine n new text) =
        (lines text).take n ++ (middle ++ (lines text).drop (n + 1)) ∧
      (middle = [dropReturn new] ∨ middle = lines new ∧ (lines text).drop (n + 1) = []) := by
  have hfields : n < (fields '\n' text).length := Nat.lt_of_lt_of_le hn (length_lines_le text)
  have hfeed : ∀ line ∈ fields '\n' text, '\n' ∉ line := fun line => sep_notMem_of_mem_fields
  have hfront : ∀ line ∈ (fields '\n' text).take n, '\n' ∉ line :=
    fun line hline => hfeed line (List.mem_of_mem_take hline)
  have hlength : ((fields '\n' text).take n).length = n := by
    rw [List.length_take, Nat.min_eq_left hfields.le]
  have htext : ['\n'].intercalate ((fields '\n' text).take n ++
      (fields '\n' text)[n] :: (fields '\n' text).drop (n + 1)) = text := by
    rw [← List.drop_eq_getElem_cons hfields, List.take_append_drop, intercalate_fields]
  have hreplaced := lines_replaced hfront (hfeed _ (List.getElem_mem hfields)) hnew
    ((fields '\n' text).drop (n + 1))
  rw [htext, hlength] at hreplaced
  rwa [setLine, List.set_eq_take_append_cons_drop, if_pos hfields]

/-! ## Searching -/

/-- To be found is to occur. -/
lemma contains_iff {sep s : List Char} : contains sep s = true ↔ sep <:+: s := by
  induction s with
  | nil => cases sep <;> simp [contains, cut?]
  | cons c rest ih =>
    rw [List.infix_cons_iff, ← ih, contains, contains, cut?]
    cases hsep : sep.isPrefixOf? (c :: rest) with
    | some after =>
      rw [List.isPrefixOf?_eq_some_iff_append_eq] at hsep
      simp [← hsep]
    | none =>
      have hbegins : ¬ sep <+: c :: rest := by
        rintro ⟨after, hafter⟩
        rw [← List.isPrefixOf?_eq_some_iff_append_eq, hsep] at hafter
        cases hafter
      simp [hbegins]

/-- A beginning does not reach a character that is not its own. -/
lemma prefix_append_cons {x : Char} {sep : List Char} (hx : x ∉ sep) (s t : List Char) :
    sep <+: s ++ x :: t ↔ sep <+: s := by
  refine ⟨fun h => ?_, fun h => h.trans (List.prefix_append ..)⟩
  rcases Nat.lt_or_ge s.length sep.length with hlt | hle
  · have hreach : s ++ [x] <+: s ++ x :: t := ⟨t, by simp⟩
    have hbegins : s ++ [x] <+: sep :=
      List.prefix_of_prefix_length_le hreach h (by simpa [Nat.succ_le_iff] using hlt)
    exact absurd (hbegins.subset (by simp)) hx
  · exact List.prefix_of_prefix_length_le h (List.prefix_append ..) hle

/-- What occurs around a character that is not its own occurs on one side of it. -/
lemma infix_append_cons {x : Char} {sep : List Char} (hx : x ∉ sep) (s t : List Char) :
    sep <:+: s ++ x :: t ↔ sep <:+: s ∨ sep <:+: t := by
  induction s with
  | nil =>
    have hbegins := prefix_append_cons hx [] t
    rw [List.nil_append] at hbegins
    rw [List.nil_append, List.infix_cons_iff, hbegins, List.infix_nil, List.prefix_nil]
  | cons c s ih =>
    have hbegins := prefix_append_cons hx (c :: s) t
    rw [List.cons_append] at hbegins
    rw [List.cons_append, List.infix_cons_iff, ih, hbegins, List.infix_cons_iff, or_assoc]

/-- What has no line feed is found within a line. -/
theorem contains_ended {sep : List Char} (hne : sep ≠ []) (hfeed : '\n' ∉ sep)
    (written : List (List Char)) :
    contains sep (ended written) = written.any (contains sep) := by
  induction written with
  | nil =>
    rw [List.any_nil, ← Bool.not_eq_true, contains_iff]
    exact fun h => hne (List.infix_nil.1 h)
  | cons line rest ih =>
    rw [ended_cons, List.any_cons, ← ih, Bool.eq_iff_iff, Bool.or_eq_true]
    simp only [contains_iff]
    exact infix_append_cons hfeed ..

end Pipework.Text
