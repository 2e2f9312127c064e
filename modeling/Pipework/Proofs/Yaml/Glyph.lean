import Mathlib.Tactic.Lemma
import Pipework.Layout
import Pipework.Yaml.Token

/-!
# Glyphs of a laid-out document

The glyphs of a text whose lines hold only ordinary characters: each stands one column right of the
one before it, and a line feed begins the next line.  `Follows` says what may stand behind a value:
after empty lines, something no further right than a given column.  Every reader of a value that
goes on over several lines stops there, and so does the search for the next token
(`Follows.exists_toToken`).
-/

namespace Pipework.Yaml

open Layout

/-! ## Ordinary characters -/

/-- The characters of a line that are as they stand: printable ones that break no line, and tabs. -/
def Ordinary (c : Char) : Prop := c = '\t' ∨ isPrintable c = true ∧ isBreak c = false

instance (c : Char) : Decidable (Ordinary c) := inferInstanceAs (Decidable (_ ∨ _))

/-- A text that is part of one line. -/
def Flat (s : List Char) : Prop := ∀ c ∈ s, Ordinary c

instance (s : List Char) : Decidable (Flat s) := List.decidableBAll _ s

lemma flat_nil : Flat [] := by simp [Flat]

lemma flat_cons {c : Char} {s : List Char} : Flat (c :: s) ↔ Ordinary c ∧ Flat s := by
  simp [Flat]

lemma flat_append {s t : List Char} : Flat (s ++ t) ↔ Flat s ∧ Flat t := by
  simp [Flat, or_imp, forall_and]

lemma Ordinary.not_isBreak {c : Char} (h : Ordinary c) : isBreak c = false := by
  rcases h with rfl | h
  · decide
  · exact h.2

lemma Ordinary.ne {c d : Char} (h : Ordinary c) (hd : ¬Ordinary d) : c ≠ d := by
  rintro rfl
  exact hd h

/-- Every ordinary character may stand in a document, and is no mark of its encoding. -/
lemma Ordinary.isAllowed {c : Char} (h : Ordinary c) :
    Glyph.isAllowed c = true ∧ c ≠ Glyph.byteOrderMark := by
  rcases h with rfl | ⟨hprint, -⟩
  · decide
  · refine ⟨?_, fun hmark => by rw [hmark] at hprint; exact absurd hprint (by decide)⟩
    simp only [isPrintable, Glyph.isAllowed, Bool.or_eq_true, Bool.and_eq_true, decide_eq_true_eq,
      beq_iff_eq, bne_iff_ne] at hprint ⊢
    omega

/-! ## Places -/

lemma ofCharsAt_cons {c : Char} (h : Ordinary c) (n k : Nat) (rest : List Char) :
    Glyph.ofCharsAt n k (c :: rest) = ⟨c, n, k⟩ :: Glyph.ofCharsAt n (k + 1) rest := by
  have hreturn : c ≠ '\r' := h.ne (by decide)
  have hnext : c.toNat ≠ 0x85 := fun hc => by
    have := h.not_isBreak
    simp [isBreak, hc] at this
  rw [Glyph.ofCharsAt]
  · simp [hreturn, hnext, h.not_isBreak]
  · intro rest' heq
    exact absurd heq hreturn

@[simp]
lemma ofCharsAt_newline (n k : Nat) (rest : List Char) :
    Glyph.ofCharsAt n k ('\n' :: rest) = ⟨'\n', n, k⟩ :: Glyph.ofCharsAt (n + 1) 0 rest := by
  rw [Glyph.ofCharsAt]
  · simp [isBreak]
  · intro rest' heq
    exact absurd heq (by decide)

lemma ordinary_space : Ordinary ' ' := by decide

/-! ## The next token -/

section

variable {inFlow keyAllowed : Bool}

lemma toToken_space (n k : Nat) (rest : List Char) :
    toToken inFlow keyAllowed false (Glyph.ofCharsAt n k (' ' :: rest)) =
      toToken inFlow keyAllowed false (Glyph.ofCharsAt n (k + 1) rest) := by
  rw [ofCharsAt_cons ordinary_space, toToken]
  simp [Glyph.isBreak, isBreak]

lemma toToken_spaces (n k : Nat) (width : Nat) (rest : List Char) :
    toToken inFlow keyAllowed false
        (Glyph.ofCharsAt n k (List.replicate width ' ' ++ rest)) =
      toToken inFlow keyAllowed false (Glyph.ofCharsAt n (k + width) rest) := by
  induction width generalizing k with
  | zero => rfl
  | succ width ih =>
    rw [List.replicate_succ, List.cons_append, toToken_space, ih, Nat.add_right_comm]
    rfl

/-- In block context a key can begin on every new line. -/
lemma toToken_newline (n k : Nat) (rest : List Char) :
    toToken false keyAllowed false (Glyph.ofCharsAt n k ('\n' :: rest)) =
      toToken false true false (Glyph.ofCharsAt (n + 1) 0 rest) := by
  rw [ofCharsAt_newline, toToken]
  simp [Glyph.isBreak, isBreak]

/-- A character that begins a token: neither a blank nor the beginning of a comment. -/
structure Solid (c : Char) : Prop where
  ordinary : Ordinary c
  ne_space : c ≠ ' '
  ne_tab : c ≠ '\t'
  ne_hash : c ≠ '#'

instance (c : Char) : Decidable (Solid c) :=
  decidable_of_iff (Ordinary c ∧ c ≠ ' ' ∧ c ≠ '\t' ∧ c ≠ '#')
    ⟨fun h => ⟨h.1, h.2.1, h.2.2.1, h.2.2.2⟩, fun h => ⟨h.1, h.2, h.3, h.4⟩⟩

lemma toToken_solid {c : Char} (h : Solid c) (n k : Nat) (rest : List Char) :
    toToken inFlow keyAllowed false (Glyph.ofCharsAt n k (c :: rest)) =
      (keyAllowed, Glyph.ofCharsAt n k (c :: rest)) := by
  rw [ofCharsAt_cons h.ordinary, toToken]
  simp [Glyph.isBreak, h.ordinary.not_isBreak, h.ne_space, h.ne_tab, h.ne_hash]

end

/-! ## Lines -/

lemma write_cons (l : Line) (lines : List Line) : write (l :: lines) = l.write ++ write lines := by
  simp [write]

lemma write_blank (level : Nat) (lines : List Line) :
    write (⟨level, []⟩ :: lines) = '\n' :: write lines := by
  simp [write, Line.write]

lemma write_line (level : Nat) {text : List Char} (h : text ≠ []) (lines : List Line) :
    write (⟨level, text⟩ :: lines) =
      List.replicate (2 * level) ' ' ++ (text ++ '\n' :: write lines) := by
  simp [write, Line.write, h, indent, levelWidth, Nat.mul_comm]

/-- What follows a value: empty lines, and then a token no further right than a column, or
the end. -/
inductive Follows (column : Nat) : List Line → Prop where
  | nil : Follows column []
  | blank (level : Nat) {lines : List Line} (h : Follows column lines) :
    Follows column (⟨level, []⟩ :: lines)
  | line {level : Nat} {c : Char} (hle : 2 * level ≤ column) (hc : Solid c) (text : List Char)
    (lines : List Line) : Follows column (⟨level, c :: text⟩ :: lines)

lemma Follows.mono {column column' : Nat} {lines : List Line} (h : Follows column lines)
    (hle : column ≤ column') : Follows column' lines := by
  induction h with
  | nil => exact .nil
  | blank level h ih => exact .blank level ih
  | line hlevel hc text lines => exact .line (Nat.le_trans hlevel hle) hc text lines

/-- The next token of a line that is not empty begins behind its indentation. -/
lemma toToken_line {c : Char} (hc : Solid c) (n level : Nat) (text : List Char)
    (lines : List Line) :
    toToken false true false (Glyph.ofCharsAt n 0 (write (⟨level, c :: text⟩ :: lines))) =
      (true, ⟨c, n, 2 * level⟩ ::
        Glyph.ofCharsAt n (2 * level + 1) (text ++ '\n' :: write lines)) := by
  rw [write_line _ (List.cons_ne_nil _ _), toToken_spaces, List.cons_append, toToken_solid hc,
    ofCharsAt_cons hc.ordinary, Nat.zero_add]

/-- The search for the next token ends no further right than the column. -/
lemma Follows.exists_toToken {column : Nat} {lines : List Line} (h : Follows column lines)
    (n : Nat) :
    toToken false true false (Glyph.ofCharsAt n 0 (write lines)) = (true, []) ∨
      ∃ g rest, toToken false true false (Glyph.ofCharsAt n 0 (write lines)) = (true, g :: rest) ∧
        g.column ≤ column := by
  induction h generalizing n with
  | nil => exact .inl rfl
  | blank level h ih =>
    rw [write_blank, toToken_newline]
    exact ih (n + 1)
  | line hle hc text lines => exact .inr ⟨_, _, toToken_line hc n _ text lines, hle⟩

/-- What a value leaves that goes on over several lines: the next token, or the end. -/
structure Resumes (n : Nat) (lines : List Line) (rest : List Glyph) : Prop where
  toToken_eq : toToken false true false rest =
    toToken false true false (Glyph.ofCharsAt n 0 (write lines))
  head : ∀ g ∈ rest.head?, g.isBlank = false ∧ n ≤ g.line

end Pipework.Yaml
