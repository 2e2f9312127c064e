import Mathlib.Data.List.DropRight
import Mathlib.Data.Option.Basic
import Pipework.Proofs.Yaml.Glyph

/-!
# Literal blocks read back

The lines below a block's mark are read as they were laid out: their indentation is found or told
by the mark, empty lines stand for breaks, and those at the end do not count.  What comes back is
the lines up to the last that is not empty, each with a line feed behind it (`blockText`).
-/

namespace Pipework.Yaml

open Layout

/-- The text of a literal block with some lines: empty lines at its end do not count. -/
def blockText (lines : List (List Char)) : List Char :=
  (lines.rdropWhile List.isEmpty).flatMap (· ++ ['\n'])

/-! ## Lines put together -/

lemma rdropWhile_cons {α : Type} (p : α → Bool) (x : α) (l : List α) :
    (x :: l).rdropWhile p = if l.rdropWhile p = [] ∧ p x = true then [] else x :: l.rdropWhile p := by
  induction l using List.reverseRecOn with
  | nil => by_cases hx : p x = true <;> simp [List.rdropWhile, hx]
  | append_singleton l y ih =>
    rw [← List.cons_append, List.rdropWhile_concat, List.rdropWhile_concat]
    by_cases hy : p y = true
    · simp only [hy, if_true, ih]
    · simp [hy]

lemma blockText_nil_cons (rest : List (List Char)) :
    blockText ([] :: rest) = if blockText rest = [] then [] else '\n' :: blockText rest := by
  rw [blockText, rdropWhile_cons, blockText]
  cases rest.rdropWhile List.isEmpty <;> simp

lemma blockText_cons {text : List Char} (h : text ≠ []) (rest : List (List Char)) :
    blockText (text :: rest) = text ++ '\n' :: blockText rest := by
  simp [blockText, rdropWhile_cons, h]

/-- Empty lines at the end do not count. -/
lemma blockText_append_replicate (lines : List (List Char)) (j : Nat) :
    blockText (lines ++ List.replicate j []) = blockText lines := by
  induction j with
  | zero => simp
  | succ j ih =>
    rw [← ih, blockText, List.replicate_succ', ← List.append_assoc, List.rdropWhile_concat]
    rfl

/-- The line feeds of the empty lines in front of some lines. -/
def above : List (List Char) → List Char
  | [] :: rest => '\n' :: above rest
  | _ => []

/-- The lines of a block that are not empty, each with the line feeds of the empty lines below. -/
def blockLines : List (List Char) → List BlockLine
  | [] => []
  | [] :: rest => blockLines rest
  | text :: rest => ⟨text, some '\n', above rest⟩ :: blockLines rest

lemma blockText_eq_nil_iff {lines : List (List Char)} :
    blockText lines = [] ↔ blockLines lines = [] := by
  induction lines with
  | nil => exact ⟨fun _ => rfl, fun _ => rfl⟩
  | cons text rest ih =>
    cases text with
    | nil =>
      rw [blockText_nil_cons, blockLines, ← ih]
      by_cases hrest : blockText rest = [] <;> simp [hrest]
    | cons c text => simp [blockText_cons (List.cons_ne_nil c text), blockLines]

lemma joinLines_blockLines {lines : List (List Char)} (h : blockLines lines ≠ []) :
    above lines ++ joinLines false .clip (blockLines lines) = blockText lines := by
  induction lines with
  | nil => exact absurd rfl h
  | cons text rest ih =>
    cases text with
    | nil =>
      have hrest : blockLines rest ≠ [] := h
      rw [blockText_nil_cons, if_neg (blockText_eq_nil_iff.not.2 hrest), ← ih hrest]
      rfl
    | cons c text =>
      rw [blockText_cons (List.cons_ne_nil c text)]
      cases hlines : blockLines rest with
      | nil =>
        rw [blockText_eq_nil_iff.2 hlines]
        simp [above, blockLines, hlines, joinLines]
      | cons l more =>
        have hrest := ih (by simp [hlines])
        rw [hlines] at hrest
        simp [above, blockLines, hlines, joinLines, betweenLines, ← hrest]

lemma joinBlock_blockLines (lines : List (List Char)) :
    joinBlock false .clip (above lines) (blockLines lines) = blockText lines := by
  cases hlines : blockLines lines with
  | nil =>
    rw [blockText_eq_nil_iff.2 hlines]
    rfl
  | cons l rest =>
    rw [← joinLines_blockLines (by simp [hlines]), hlines]
    rfl

/-! ## Reading the lines -/

/-- The lines of a block as they are written, with some spaces in front. -/
def writeLines (width : Nat) (lines : List (List Char)) : List Char :=
  lines.flatMap fun l => (if l.isEmpty then [] else List.replicate width ' ' ++ l) ++ ['\n']

lemma write_block (level : Nat) (content : List (List Char)) (tail : List Line) :
    write (content.map (⟨level, ·⟩) ++ tail) = writeLines (2 * level) content ++ write tail := by
  induction content with
  | nil => rfl
  | cons l rest ih =>
    rw [List.map_cons, List.cons_append, write_cons, ih]
    simp [writeLines, Line.write, indent, levelWidth, Nat.mul_comm]

lemma readBlockLines_spaces {indent width k : Nat} (h : k + width ≤ indent) (n : Nat)
    (rest : List Char) :
    readBlockLines indent (Glyph.ofCharsAt n k (List.replicate width ' ' ++ rest)) =
      readBlockLines indent (Glyph.ofCharsAt n (k + width) rest) := by
  induction width generalizing k with
  | zero => rfl
  | succ width ih =>
    have hlt : k < indent := by omega
    rw [List.replicate_succ, List.cons_append, ofCharsAt_cons ordinary_space, readBlockLines]
    simp [hlt, ih (k := k + 1) (by omega), Nat.add_assoc, Nat.add_comm 1]

/-- The rest of a line belongs to it up to the line feed. -/
lemma readBlockLine_append {indent : Nat} {t : List Char} (h : Flat t) (n k : Nat)
    (rest : List Char) :
    readBlockLine indent (Glyph.ofCharsAt n k (t ++ '\n' :: rest)) =
      (readBlockLines indent (Glyph.ofCharsAt (n + 1) 0 rest)).map fun (below, lines, rest) =>
        (⟨t, some '\n', below⟩, lines, rest) := by
  induction t generalizing k with
  | nil =>
    rw [List.nil_append, ofCharsAt_newline, readBlockLine]
    simp [Glyph.isBreak, isBreak]
  | cons c t ih =>
    obtain ⟨hc, ht⟩ := flat_cons.1 h
    rw [List.cons_append, ofCharsAt_cons hc, readBlockLine, ih ht]
    cases readBlockLines indent (Glyph.ofCharsAt (n + 1) 0 rest) <;>
      simp [Glyph.isBreak, hc.not_isBreak]

/-- Lines that stand left of a block end it; empty lines in front of them are still its own. -/
lemma readBlockLines_follows {column indent : Nat} (hlt : column < indent) {tail : List Line}
    (h : Follows column tail) (n : Nat) :
    ∃ j rest, readBlockLines indent (Glyph.ofCharsAt n 0 (write tail)) =
        some (List.replicate j '\n', [], rest) ∧ Resumes n tail rest := by
  induction h generalizing n with
  | nil => exact ⟨0, [], rfl, ⟨rfl, by simp⟩⟩
  | blank level h ih =>
    obtain ⟨j, rest, hread, hrest⟩ := ih (n + 1)
    refine ⟨j + 1, rest, ?_, ?_, fun g hg => ?_⟩
    · rw [write_blank, ofCharsAt_newline, readBlockLines, hread]
      simp [Glyph.isBreak, isBreak, List.replicate_succ]
    · rw [write_blank, toToken_newline]
      exact hrest.toToken_eq
    · exact ⟨(hrest.head g hg).1, by have := (hrest.head g hg).2; omega⟩
  | line hle hc text lines =>
    rename_i level c
    refine ⟨0, ⟨c, n, 2 * level⟩ ::
      Glyph.ofCharsAt n (2 * level + 1) (text ++ '\n' :: write lines), ?_, ?_, ?_⟩
    · have hne : 2 * level ≠ indent := by omega
      rw [write_line _ (List.cons_ne_nil _ _), readBlockLines_spaces (by omega), List.cons_append,
        ofCharsAt_cons hc.ordinary, Nat.zero_add, readBlockLines]
      simp [Glyph.isBreak, hc.ordinary.not_isBreak, hc.ne_space, hc.ne_tab, hne]
    · rw [toToken_line hc, ← ofCharsAt_cons hc.ordinary, toToken_solid hc]
    · simp [Glyph.isBlank, hc.ne_space, hc.ne_tab]

/-- The lines of a block are read as they were written. -/
lemma readBlockLines_writeLines {column indent : Nat} (hlt : column < indent) {tail : List Line}
    (h : Follows column tail) {content : List (List Char)} (hflat : ∀ l ∈ content, Flat l)
    (n : Nat) :
    ∃ j rest, readBlockLines indent
          (Glyph.ofCharsAt n 0 (writeLines indent content ++ write tail)) =
        some (above (content ++ List.replicate j []), blockLines (content ++ List.replicate j []),
          rest) ∧ Resumes (n + content.length) tail rest := by
  induction content generalizing n with
  | nil =>
    obtain ⟨j, rest, hread, hrest⟩ := readBlockLines_follows hlt h n
    refine ⟨j, rest, ?_, hrest⟩
    have hempty (j : Nat) : above (List.replicate j []) = List.replicate j '\n' ∧
        blockLines (List.replicate j []) = [] := by
      induction j with
      | zero => exact ⟨rfl, rfl⟩
      | succ j ih => simp [List.replicate_succ, above, blockLines, ih]
    rw [List.nil_append, (hempty j).1, (hempty j).2]
    exact hread
  | cons l content ih =>
    obtain ⟨j, rest, hread, hrest⟩ := ih (fun l hl => hflat l (List.mem_cons_of_mem _ hl)) (n + 1)
    refine ⟨j, rest, ?_, by rwa [List.length_cons, Nat.add_comm content.length, ← Nat.add_assoc]⟩
    cases l with
    | nil =>
      have hwrite : writeLines indent ([] :: content) ++ write tail =
          '\n' :: (writeLines indent content ++ write tail) := rfl
      rw [hwrite, ofCharsAt_newline, readBlockLines, hread]
      simp [Glyph.isBreak, isBreak, above, blockLines]
    | cons c l =>
      obtain ⟨hc, hl⟩ := flat_cons.1 (hflat (c :: l) List.mem_cons_self)
      have hwrite : writeLines indent ((c :: l) :: content) ++ write tail =
          List.replicate indent ' ' ++
            (c :: (l ++ '\n' :: (writeLines indent content ++ write tail))) := by
        simp [writeLines]
      rw [hwrite, readBlockLines_spaces (by omega), ofCharsAt_cons hc, Nat.zero_add, readBlockLines,
        readBlockLine_append hl, hread]
      simp [Glyph.isBreak, hc.not_isBreak, above, blockLines]

/-! ## Finding the indentation -/

lemma blockIndent?_spaces (deepest width k n : Nat) (rest : List Char) :
    blockIndent? deepest (Glyph.ofCharsAt n k (List.replicate width ' ' ++ rest)) =
      blockIndent? (if width = 0 then deepest else max deepest (k + width))
        (Glyph.ofCharsAt n (k + width) rest) := by
  induction width generalizing k deepest with
  | zero => rfl
  | succ width ih =>
    rw [List.replicate_succ, List.cons_append, ofCharsAt_cons ordinary_space, blockIndent?]
    simp only [beq_self_eq_true, if_true, ih]
    congr 1
    · split <;> simp <;> omega
    · congr 1
      omega

/-- The line that follows a block tells no indentation that would be too deep. -/
lemma Follows.exists_blockIndent? {column : Nat} {tail : List Line} (h : Follows column tail)
    {deepest : Nat} (hdeepest : deepest ≤ column) (n : Nat) :
    ∃ d ≤ column, blockIndent? deepest (Glyph.ofCharsAt n 0 (write tail)) = some d := by
  induction h generalizing n with
  | nil => exact ⟨deepest, hdeepest, rfl⟩
  | blank level h ih =>
    obtain ⟨d, hd, hfound⟩ := ih (n + 1)
    refine ⟨d, hd, ?_⟩
    rw [write_blank, ofCharsAt_newline, blockIndent?, hfound]
    simp [Glyph.isBreak, isBreak]
  | line hle hc text lines =>
    rename_i level c
    refine ⟨if 2 * level = 0 then deepest else max deepest (2 * level), by split <;> omega, ?_⟩
    rw [write_line _ (List.cons_ne_nil _ _), blockIndent?_spaces, List.cons_append,
      ofCharsAt_cons hc.ordinary, blockIndent?]
    simp [Glyph.isBreak, hc.ordinary.not_isBreak, hc.ne_space, hc.ne_tab]

/-- The first line of a block that is not empty tells its indentation, unless it begins with a
blank. -/
lemma blockIndent?_writeLines {width : Nat} (hwidth : width ≠ 0) {content : List (List Char)}
    (hflat : ∀ l ∈ content, Flat l) (hstart : startsIndented content = false)
    (hne : blockLines content ≠ []) (n : Nat) (rest : List Char) :
    blockIndent? 0 (Glyph.ofCharsAt n 0 (writeLines width content ++ rest)) = some width := by
  induction content generalizing n with
  | nil => exact absurd rfl hne
  | cons l content ih =>
    cases l with
    | nil =>
      have hwrite : writeLines width ([] :: content) ++ rest =
          '\n' :: (writeLines width content ++ rest) := rfl
      have hstart' : startsIndented content = false := hstart
      rw [hwrite, ofCharsAt_newline, blockIndent?]
      simp only [Glyph.isBreak, isBreak]
      exact ih (fun l hl => hflat l (List.mem_cons_of_mem _ hl)) hstart' hne (n + 1)
    | cons c l =>
      obtain ⟨hc, hl⟩ := flat_cons.1 (hflat (c :: l) List.mem_cons_self)
      have hspace : Text.isSpace c = false := hstart
      have hblank : c ≠ ' ' ∧ c ≠ '\t' := by
        constructor <;> (rintro rfl; exact absurd hspace (by decide))
      have hwrite : writeLines width ((c :: l) :: content) ++ rest =
          List.replicate width ' ' ++ (c :: (l ++ '\n' :: (writeLines width content ++ rest))) := by
        simp [writeLines]
      rw [hwrite, blockIndent?_spaces, ofCharsAt_cons hc, blockIndent?]
      simp [Glyph.isBreak, hc.not_isBreak, hblank, hwidth]

/-! ## Reading the block -/

/-- Where all lines are empty it does not matter how far the others would be indented. -/
lemma writeLines_of_empty {content : List (List Char)} (h : blockLines content = [])
    (width width' : Nat) : writeLines width content = writeLines width' content := by
  induction content with
  | nil => rfl
  | cons l content ih =>
    cases l with
    | nil =>
      have hrest : writeLines width content = writeLines width' content := ih h
      simpa [writeLines] using hrest
    | cons c l => simp [blockLines] at h

lemma Follows.append_empty {column level : Nat} {tail : List Line} (h : Follows column tail)
    {content : List (List Char)} (hempty : blockLines content = []) :
    Follows column (content.map (⟨level, ·⟩) ++ tail) := by
  induction content with
  | nil => exact h
  | cons l content ih =>
    cases l with
    | nil => exact .blank level (ih hempty)
    | cons c l => simp [blockLines] at hempty

section

variable {level : Nat} {tail : List Line} {content : List (List Char)}

/-- The lines of a block are read with the indentation they were written with; lines that are all
empty are read with any. -/
lemma readBlockLines_block (h : Follows (2 * level) tail) (hflat : ∀ l ∈ content, Flat l)
    {indent : Nat} (hlt : 2 * level < indent)
    (hindent : indent = 2 * (level + 1) ∨ blockLines content = []) (n : Nat) :
    ∃ lines rest, readBlockLines indent
          (Glyph.ofCharsAt n 0 (write (content.map (⟨level + 1, ·⟩) ++ tail))) =
        some (above lines, blockLines lines, rest) ∧ blockText lines = blockText content ∧
      Resumes (n + content.length) tail rest := by
  obtain ⟨j, rest, hread, hrest⟩ := readBlockLines_writeLines hlt h hflat n
  refine ⟨_, rest, ?_, blockText_append_replicate content j, hrest⟩
  rw [write_block]
  rcases hindent with rfl | hempty
  · exact hread
  · rw [writeLines_of_empty hempty _ indent]
    exact hread

/-- The indentation of a block that does not tell it is found in its lines. -/
lemma exists_blockIndent?_block (h : Follows (2 * level) tail) (hflat : ∀ l ∈ content, Flat l)
    (hstart : startsIndented content = false) (n : Nat) :
    ∃ d, blockIndent? 0
        (Glyph.ofCharsAt n 0 (write (content.map (⟨level + 1, ·⟩) ++ tail))) = some d ∧
      2 * level < max d (2 * level + 1) ∧
      (max d (2 * level + 1) = 2 * (level + 1) ∨ blockLines content = []) := by
  by_cases hempty : blockLines content = []
  · have hfollows : Follows (2 * level) (content.map (⟨level + 1, ·⟩) ++ tail) :=
      h.append_empty hempty
    obtain ⟨d, hd, hfound⟩ := hfollows.exists_blockIndent? (Nat.zero_le _) n
    exact ⟨d, hfound, by omega, .inr hempty⟩
  · refine ⟨2 * (level + 1), ?_, by omega, .inl (by omega)⟩
    rw [write_block]
    exact blockIndent?_writeLines (by omega) hflat hstart hempty n _

/-- A literal block below a key of some level is read as the text of its lines. -/
theorem readBlock_append (h : Follows (2 * level) tail) (hflat : ∀ l ∈ content, Flat l)
    (n k : Nat) :
    ∃ rest, readBlock false (2 * level) (2 * level + 1)
          (Glyph.ofCharsAt n k ((Layout.blockMark content).tail ++
            '\n' :: write (content.map (⟨level + 1, ·⟩) ++ tail))) =
        some (blockText content, rest) ∧ Resumes (n + 1 + content.length) tail rest := by
  cases hstart : startsIndented content with
  | false =>
    have hmark : (Layout.blockMark content).tail = [] := by simp [Layout.blockMark, hstart]
    obtain ⟨d, hfound, hlt, hindent⟩ := exists_blockIndent?_block h hflat hstart (n + 1)
    obtain ⟨lines, rest, hread, htext, hrest⟩ := readBlockLines_block h hflat hlt hindent (n + 1)
    refine ⟨rest, ?_, hrest⟩
    rw [hmark, List.nil_append, ofCharsAt_newline, readBlock]
    simp [lineOf, skipLine, Glyph.isBreak, isBreak, readHeader, isLineEnd, skipBlanks, hfound, hread,
      ← htext, joinBlock_blockLines]
  | true =>
    have hmark : (Layout.blockMark content).tail = ['2'] := by simp [Layout.blockMark, hstart]; rfl
    obtain ⟨lines, rest, hread, htext, hrest⟩ :=
      readBlockLines_block h hflat (by omega) (.inl rfl) (n + 1)
    refine ⟨rest, ?_, hrest⟩
    have htwo : (2 * level + 2) = 2 * (level + 1) := by omega
    rw [hmark, List.singleton_append, ofCharsAt_cons (by decide), ofCharsAt_newline, readBlock]
    simp [lineOf, skipLine, Glyph.isBreak, isBreak, readHeader, isLineEnd, skipBlanks, hread,
      ← htext, joinBlock_blockLines, htwo]

end

end Pipework.Yaml
