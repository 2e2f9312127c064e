import Pipework.Proofs.Text.Quoted
import Pipework.Proofs.Yaml.Glyph

/-!
# Quoted scalars read back

A string that was written between quotes on one line is read back by `readSingle` and `readDouble`,
wherever it stands behind its first column and whatever follows it.  The two ways in which a string
is written between double quotes differ in the characters they escape; both satisfy `Escapes`,
which is all that reading needs.
-/

namespace Pipework.Yaml

/-- Marks between documents stand at the start of a line. -/
lemma atAnyMarker_of_column {g : Glyph} (h : g.column ≠ 0) (rest : List Glyph) :
    atAnyMarker (g :: rest) = false := by
  have hmarker (c : Char) : atMarker c (g :: rest) = false := by
    rcases rest with _ | ⟨y, _ | ⟨z, rest⟩⟩ <;> simp [atMarker, h]
  simp [atAnyMarker, hmarker]

/-- They are of dashes or dots. -/
lemma atAnyMarker_of_char {c : Char} (hdash : c ≠ '-') (hdot : c ≠ '.') (n k : Nat)
    (rest : List Glyph) : atAnyMarker (⟨c, n, k⟩ :: rest) = false := by
  rcases rest with _ | ⟨y, _ | ⟨z, rest⟩⟩ <;> simp [atAnyMarker, atMarker, hdash, hdot]

/-! ## Single quotes -/

lemma flat_doubleSingleQuote {s : List Char} (h : Flat s) :
    Flat (s.flatMap Text.doubleSingleQuote) := by
  intro c hc
  obtain ⟨d, hd, hcd⟩ := List.mem_flatMap.1 hc
  unfold Text.doubleSingleQuote at hcd
  split at hcd
  · obtain rfl : c = '\'' := by simpa using hcd
    decide
  · obtain rfl : c = d := by simpa using hcd
    exact h c hd

/-- The inside of a string on one line has its quotes doubled and nothing else changed. -/
lemma singleBody_eq_flatMap {s : List Char} (h : Flat s) (indent : Nat) :
    singleBody indent false s = s.flatMap Text.doubleSingleQuote := by
  induction s with
  | nil => rfl
  | cons c rest ih =>
    obtain ⟨hc, hrest⟩ := flat_cons.1 h
    simp [singleBody, hc.not_isBreak, ih hrest]

lemma doubleSingleQuote_of_ne {c : Char} (h : c ≠ '\'') : Text.doubleSingleQuote c = [c] := by
  rw [Text.doubleSingleQuote]
  exact h

/-- Nothing but quotes is in a string between single quotes that is not in the string. -/
lemma notMem_singleQuoted {c : Char} {s : List Char} (hc : c ≠ '\'') (h : c ∉ s) :
    c ∉ Text.singleQuoted s := by
  have hbody : c ∉ s.flatMap Text.doubleSingleQuote := by
    intro hmem
    obtain ⟨d, hd, hcd⟩ := List.mem_flatMap.1 hmem
    by_cases hquote : d = '\''
    · subst hquote
      simp [Text.doubleSingleQuote, hc] at hcd
    · rw [doubleSingleQuote_of_ne hquote, List.mem_singleton] at hcd
      exact h (hcd ▸ hd)
  simp [Text.singleQuoted, hc, hbody]

/-- What stands behind a closing quote does not make it a doubled one. -/
def Unquoted (behind : List Glyph) : Prop := ∀ g ∈ behind.head?, g.char ≠ '\''

section

attribute [local simp] readSingle Glyph.isBreak Glyph.isBlank Gap.text atAnyMarker_of_column

lemma readSingle_blank {c : Char} (h : c = ' ' ∨ c = '\t') (blanks : List Char) (n k : Nat)
    (rest : List Glyph) :
    readSingle (.blanks blanks) (⟨c, n, k⟩ :: rest) =
      readSingle (.blanks (blanks ++ [c])) rest := by
  rcases h with rfl | rfl <;> cases rest <;> simp [isBreak, Gap.addBlank]

lemma readSingle_char {c : Char} (h : Ordinary c) (hspace : c ≠ ' ') (htab : c ≠ '\t')
    (hquote : c ≠ '\'') (blanks : List Char) (n k : Nat) (rest : List Glyph) :
    readSingle (.blanks blanks) (⟨c, n, k + 1⟩ :: rest) =
      (readSingle Gap.none rest).map fun (s, rest) => (blanks ++ c :: s, rest) := by
  cases rest <;> simp [h.not_isBreak, hspace, htab, hquote]

lemma readSingle_quotes (blanks : List Char) (n k : Nat) (rest : List Glyph) :
    readSingle (.blanks blanks) (⟨'\'', n, k + 1⟩ :: ⟨'\'', n, k + 2⟩ :: rest) =
      (readSingle Gap.none rest).map fun (s, rest) => (blanks ++ '\'' :: s, rest) := by
  simp [isBreak]

lemma readSingle_close {behind : List Glyph} (h : Unquoted behind) (blanks : List Char)
    (n k : Nat) :
    readSingle (.blanks blanks) (⟨'\'', n, k + 1⟩ :: behind) = some (blanks, behind) := by
  cases behind with
  | nil => simp [isBreak]
  | cons g rest =>
    have hg : g.char ≠ '\'' := h g rfl
    simp [isBreak, hg]

end

/-- A string between single quotes is read up to the quote that is not doubled. -/
theorem readSingle_append {s : List Char} (h : Flat s) (blanks behind : List Char) (n k : Nat)
    (hbehind : ∀ m, Unquoted (Glyph.ofCharsAt n m behind)) :
    ∃ m, m = k + (s.flatMap Text.doubleSingleQuote).length + 2 ∧ readSingle (.blanks blanks)
        (Glyph.ofCharsAt n (k + 1) (s.flatMap Text.doubleSingleQuote ++ '\'' :: behind)) =
      some (blanks ++ s, Glyph.ofCharsAt n m behind) := by
  have hquote : Ordinary '\'' := by decide
  induction s generalizing blanks k with
  | nil =>
    refine ⟨k + 2, rfl, ?_⟩
    rw [List.flatMap_nil, List.nil_append, ofCharsAt_cons hquote, readSingle_close (hbehind _),
      List.append_nil]
  | cons c rest ih =>
    obtain ⟨hc, hrest⟩ := flat_cons.1 h
    by_cases hq : c = '\''
    · subst hq
      obtain ⟨m, hlength, hm⟩ := ih hrest [] (k + 2)
      refine ⟨m, by rw [hlength]; simp [Text.doubleSingleQuote]; omega, ?_⟩
      have hbody : ('\'' :: rest).flatMap Text.doubleSingleQuote ++ '\'' :: behind =
          '\'' :: '\'' :: (rest.flatMap Text.doubleSingleQuote ++ '\'' :: behind) := rfl
      rw [hbody, ofCharsAt_cons hquote, ofCharsAt_cons hquote, readSingle_quotes, Gap.none, hm]
      rfl
    · obtain hbody : (c :: rest).flatMap Text.doubleSingleQuote ++ '\'' :: behind =
          c :: (rest.flatMap Text.doubleSingleQuote ++ '\'' :: behind) := by
        rw [List.flatMap_cons, doubleSingleQuote_of_ne hq, List.append_assoc,
          List.singleton_append]
      have hlength (k : Nat) : k + 1 + (rest.flatMap Text.doubleSingleQuote).length + 2 =
          k + ((c :: rest).flatMap Text.doubleSingleQuote).length + 2 := by
        rw [List.flatMap_cons, doubleSingleQuote_of_ne hq, List.length_append,
          List.length_singleton]
        omega
      rw [hbody, ofCharsAt_cons hc]
      by_cases hblank : c = ' ' ∨ c = '\t'
      · obtain ⟨m, hm, hread⟩ := ih hrest (blanks ++ [c]) (k + 1)
        exact ⟨m, hm.trans (hlength k),
          by rw [readSingle_blank hblank, hread, List.append_assoc, List.singleton_append]⟩
      · obtain ⟨m, hm, hread⟩ := ih hrest [] (k + 1)
        rw [not_or] at hblank
        refine ⟨m, hm.trans (hlength k), ?_⟩
        rw [readSingle_char hc hblank.1 hblank.2 hq, Gap.none, hread]
        rfl

/-! ## Double quotes -/

/-- A way to write characters between double quotes: as they are, or as a backslash with the letter
that stands for them. -/
def Escapes (escape : Char → List Char) (c : Char) : Prop :=
  (escape c = [c] ∧ Ordinary c ∧ c ≠ '"' ∧ c ≠ '\\') ∨
    ∃ e ∈ ['"', '\\', 'n', 't', 'r'], escape c = ['\\', e] ∧ unescape? e = some c

/-- What is written for characters is part of one line. -/
lemma Escapes.flat {escape : Char → List Char} {s : List Char} (h : ∀ c ∈ s, Escapes escape c) :
    Flat (s.flatMap escape) := by
  intro d hd
  obtain ⟨c, hc, hdc⟩ := List.mem_flatMap.1 hd
  rcases h c hc with ⟨hself, hord, -⟩ | ⟨e, he, hesc, -⟩
  · obtain rfl : d = c := by simpa [hself] using hdc
    exact hord
  · rw [hesc, List.mem_cons, List.mem_singleton] at hdc
    rcases hdc with rfl | rfl
    · decide
    · have hletters : Flat ['"', '\\', 'n', 't', 'r'] := by decide
      exact hletters d he

/-- The letter of an escape stands for the character that it escapes. -/
lemma unescape?_of_mem {c e : Char} (h : (c, e) ∈ Text.escapes) :
    e ∈ ['"', '\\', 'n', 't', 'r'] ∧ unescape? e = some c := by
  have hall : ∀ p ∈ Text.escapes, p.2 ∈ ['"', '\\', 'n', 't', 'r'] ∧
      unescape? p.2 = some p.1 := by decide
  exact hall (c, e) h

lemma escapes_escapeChar {c : Char} (h : c = '\n' ∨ c = '\r' ∨ Ordinary c) :
    Escapes Text.escapeChar c := by
  rcases Text.escapeChar_cases c with ⟨e, he, hescape⟩ | ⟨hself, hc⟩
  · obtain ⟨hletter, hstands⟩ := unescape?_of_mem he
    exact .inr ⟨e, hletter, hescape, hstands⟩
  · simp only [List.mem_cons, List.not_mem_nil, or_false, not_or] at hc
    obtain ⟨hquote, hslash, hfeed, -, hreturn⟩ := hc
    exact .inl ⟨hself, (h.resolve_left hfeed).resolve_left hreturn, hquote, hslash⟩

lemma escapes_doubleChar {c : Char} (h : Ordinary c) : Escapes doubleChar c := by
  by_cases hspecial : c ∈ ['"', '\\', '\t']
  · simp only [List.mem_cons, List.not_mem_nil, or_false] at hspecial
    rcases hspecial with rfl | rfl | rfl
    · exact .inr ⟨'"', by simp, by decide, rfl⟩
    · exact .inr ⟨'\\', by simp, by decide, rfl⟩
    · exact .inr ⟨'t', by simp, by decide, rfl⟩
  · simp only [List.mem_cons, List.not_mem_nil, or_false, not_or] at hspecial
    obtain ⟨hquote, hslash, htab⟩ := hspecial
    refine .inl ⟨?_, h, hquote, hslash⟩
    simp [doubleChar, (h.resolve_left htab).1, h.not_isBreak, hquote, hslash]

section

attribute [local simp] readDouble Glyph.isBreak Glyph.isBlank Gap.text atAnyMarker_of_column

lemma readDouble_blank {c : Char} (h : c = ' ' ∨ c = '\t') (blanks : List Char) (n k : Nat)
    (rest : List Glyph) :
    readDouble (.blanks blanks) (⟨c, n, k⟩ :: rest) =
      readDouble (.blanks (blanks ++ [c])) rest := by
  rcases h with rfl | rfl <;> simp [isBreak, Gap.addBlank]

lemma readDouble_char {c : Char} (h : Ordinary c) (hspace : c ≠ ' ') (htab : c ≠ '\t')
    (hquote : c ≠ '"') (hslash : c ≠ '\\') (blanks : List Char) (n k : Nat)
    (rest : List Glyph) :
    readDouble (.blanks blanks) (⟨c, n, k + 1⟩ :: rest) =
      (readDouble Gap.none rest).map fun (s, rest) => (blanks ++ c :: s, rest) := by
  simp [h.not_isBreak, hspace, htab, hquote, hslash]

lemma readDouble_escape {c e : Char} (he : e ∈ ['"', '\\', 'n', 't', 'r'])
    (hc : unescape? e = some c) (gap : Gap) (n k n' k' : Nat) (rest : List Glyph) :
    readDouble gap (⟨'\\', n, k⟩ :: ⟨e, n', k'⟩ :: rest) =
      (readDouble Gap.none rest).map fun (s, rest) => (gap.text ++ c :: s, rest) := by
  have hmarker := atAnyMarker_of_char (c := '\\') (by decide) (by decide) n k
    (⟨e, n', k'⟩ :: rest)
  simp only [List.mem_cons, List.not_mem_nil, or_false] at he
  rcases he with rfl | rfl | rfl | rfl | rfl <;> simp [isBreak, hmarker, hc] <;>
    cases readDouble Gap.none rest <;> rfl

lemma readDouble_close (blanks : List Char) (n k : Nat) (behind : List Glyph) :
    readDouble (.blanks blanks) (⟨'"', n, k + 1⟩ :: behind) = some (blanks, behind) := by
  simp [isBreak]

end

/-- A string between double quotes is read up to the quote that is not escaped. -/
theorem readDouble_append {escape : Char → List Char} {s : List Char}
    (h : ∀ c ∈ s, Escapes escape c) (blanks behind : List Char) (n k : Nat) :
    ∃ m, m = k + (s.flatMap escape).length + 2 ∧ readDouble (.blanks blanks)
        (Glyph.ofCharsAt n (k + 1) (s.flatMap escape ++ '"' :: behind)) =
      some (blanks ++ s, Glyph.ofCharsAt n m behind) := by
  induction s generalizing blanks k with
  | nil =>
    refine ⟨k + 2, rfl, ?_⟩
    rw [List.flatMap_nil, List.nil_append, ofCharsAt_cons (by decide), readDouble_close,
      List.append_nil]
  | cons c rest ih =>
    have hrest : ∀ d ∈ rest, Escapes escape d := fun d hd => h d (List.mem_cons_of_mem _ hd)
    rcases h c List.mem_cons_self with ⟨hself, hc, hquote, hslash⟩ | ⟨e, he, hesc, hc⟩
    · rw [List.flatMap_cons, hself, List.singleton_append, List.length_cons, List.cons_append,
        ofCharsAt_cons hc]
      by_cases hblank : c = ' ' ∨ c = '\t'
      · obtain ⟨m, hm, hread⟩ := ih hrest (blanks ++ [c]) (k + 1)
        exact ⟨m, by omega,
          by rw [readDouble_blank hblank, hread, List.append_assoc, List.singleton_append]⟩
      · obtain ⟨m, hm, hread⟩ := ih hrest [] (k + 1)
        rw [not_or] at hblank
        refine ⟨m, by omega, ?_⟩
        rw [readDouble_char hc hblank.1 hblank.2 hquote hslash, Gap.none, hread]
        rfl
    · obtain ⟨m, hm, hread⟩ := ih hrest [] (k + 2)
      refine ⟨m, by rw [hm, List.flatMap_cons, hesc]; simp; omega, ?_⟩
      have hletters : Flat ['"', '\\', 'n', 't', 'r'] := by decide
      rw [List.flatMap_cons, hesc, List.append_assoc, List.cons_append, List.singleton_append,
        ofCharsAt_cons (by decide), ofCharsAt_cons (hletters e he), readDouble_escape he hc,
        Gap.none, hread]
      rfl

end Pipework.Yaml
