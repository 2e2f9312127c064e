import Mathlib.Tactic.Lemma
import Pipework.Text.Lines
import Pipework.Text.Space

/-!
# Parts of texts

The characters of a trimmed text, and of the lines of a text, are characters of that text.
-/

namespace Pipework.Text

lemma mem_of_mem_dropEndWhile {p : Char → Bool} {c : Char} {s : List Char}
    (h : c ∈ dropEndWhile p s) : c ∈ s := by
  induction s with
  | nil => exact h
  | cons d rest ih =>
    rw [dropEndWhile] at h
    cases hrest : dropEndWhile p rest with
    | nil =>
      rw [hrest] at h
      simp only at h
      split at h
      · simp at h
      · rw [List.mem_singleton] at h
        exact h ▸ List.mem_cons_self
    | cons e kept =>
      rw [hrest] at h ih
      rcases List.mem_cons.1 h with rfl | hkept
      · exact List.mem_cons_self
      · exact List.mem_cons_of_mem _ (ih hkept)

lemma mem_of_mem_trim {c : Char} {s : List Char} (h : c ∈ trim s) : c ∈ s :=
  (List.dropWhile_suffix _).subset (mem_of_mem_dropEndWhile h)

lemma mem_consLine {c d : Char} {lines : List (List Char)} {line : List Char}
    (h : line ∈ consLine c lines) (hd : d ∈ line) : d = c ∨ ∃ l ∈ lines, d ∈ l := by
  cases lines with
  | nil =>
    obtain rfl : line = [c] := by simpa [consLine] using h
    exact .inl (by simpa using hd)
  | cons l rest =>
    rcases List.mem_cons.1 h with rfl | hrest
    · rcases List.mem_cons.1 hd with rfl | hl
      · exact .inl rfl
      · exact .inr ⟨l, List.mem_cons_self, hl⟩
    · exact .inr ⟨line, List.mem_cons_of_mem _ hrest, hd⟩

/-- A line of a text is a part of it without line feeds. -/
lemma mem_lines {s line : List Char} (h : line ∈ lines s) {c : Char} (hc : c ∈ line) :
    c ∈ s ∧ c ≠ '\n' := by
  induction s using lines.induct generalizing line with
  | case1 => simp [lines] at h
  | case2 rest ih =>
    rw [lines] at h
    rcases List.mem_cons.1 h with rfl | h
    · simp at hc
    · exact ⟨List.mem_cons_of_mem _ (ih h hc).1, (ih h hc).2⟩
  | case3 rest ih =>
    rw [lines] at h
    rcases List.mem_cons.1 h with rfl | h
    · simp at hc
    · exact ⟨List.mem_cons_of_mem _ (List.mem_cons_of_mem _ (ih h hc).1), (ih h hc).2⟩
  | case4 d rest hfeed hreturn ih =>
    rw [lines] at h
    · rcases mem_consLine h hc with rfl | ⟨l, hl, hcl⟩
      · exact ⟨List.mem_cons_self, fun heq => hfeed heq⟩
      · exact ⟨List.mem_cons_of_mem _ (ih hl hcl).1, (ih hl hcl).2⟩
    · exact hfeed
    · exact hreturn

end Pipework.Text
