import Pipework.Proofs.Yaml.Quoted

/-!
# Plain scalars read back

A text that can stand plain is read by `readPlain` up to the colon that makes it a key, or up to the
end of its line.  In the latter case the reader goes on to the next line that is not empty and stops
there, because that line stands no further right than the collection around the scalar
(`readPlain_value`); what it leaves has the same tokens as that line.
-/

namespace Pipework.Yaml

open Layout

/-! ## Texts that can stand plain -/

/-- A text that can be written without quotes. -/
structure Plain (s : List Char) : Prop where
  ne_nil : s ≠ []
  allowed : plainAllowed s = true

instance (s : List Char) : Decidable (Plain s) :=
  decidable_of_iff (s ≠ [] ∧ plainAllowed s = true) ⟨fun h => ⟨h.1, h.2⟩, fun h => ⟨h.1, h.2⟩⟩

namespace Plain

variable {s : List Char}

lemma printable (h : Plain s) : ∀ c ∈ s, isPrintable c = true ∧ isBreak c = false := by
  have hallowed := h.allowed
  simp only [plainAllowed, needsEscapes, Bool.not_eq_eq_eq_not, Bool.not_true, Bool.or_eq_false_iff,
    List.any_eq_false, Bool.not_eq_true, Bool.not_eq_false] at hallowed
  exact fun c hc => ⟨by simpa using hallowed.1.2.1 c hc, hallowed.1.1.1.1 c hc⟩

lemma flat (h : Plain s) : Flat s := fun c hc => .inr (h.printable c hc)

lemma getLast?_ne (h : Plain s) : s.getLast? ≠ some ' ' := by
  have hallowed := h.allowed
  simp only [plainAllowed, Bool.not_eq_eq_eq_not, Bool.not_true, Bool.or_eq_false_iff,
    beq_eq_false_iff_ne] at hallowed
  exact hallowed.1.1.2

lemma hasIndicator_eq_false (h : Plain s) : hasIndicator s = false := by
  have hallowed := h.allowed
  simp only [plainAllowed, Bool.not_eq_eq_eq_not, Bool.not_true, Bool.or_eq_false_iff] at hallowed
  exact hallowed.2

end Plain

/-- A tab is not printable, so a plain text has none. -/
lemma ne_tab_of_isPrintable {c : Char} (h : isPrintable c = true) : c ≠ '\t' := by
  rintro rfl
  exact absurd h (by decide)

/-- What a plain text has in front of a colon or of its end is not a blank. -/
lemma not_isBlankOrEnd {c : Option Char} (h : isBlankOrEnd c = false) :
    ∃ d, c = some d ∧ d ≠ ' ' ∧ d ≠ '\t' ∧ isBreak d = false := by
  cases c with
  | none => simp [isBlankOrEnd] at h
  | some d =>
    simp only [isBlankOrEnd, Bool.or_eq_false_iff, beq_eq_false_iff_ne] at h
    exact ⟨d, rfl, h.1.1.1, h.1.1.2, h.2⟩

/-- A text that does not begin with a blank is not at a gap, whatever it goes on with. -/
lemma atGap_append {t : List Char} (h : isBlankOrEnd t.head? = false) (ht : Flat t)
    (n k : Nat) (behind : List Char) : atGap (Glyph.ofCharsAt n k (t ++ behind)) = false := by
  obtain ⟨d, hd, hspace, htab, hbreak⟩ := not_isBlankOrEnd h
  obtain ⟨t', rfl⟩ := List.head?_eq_some_iff.1 hd
  rw [List.cons_append, ofCharsAt_cons (flat_cons.1 ht).1]
  simp [atGap, Glyph.isSolid, Glyph.isBlank, Glyph.isBreak, hspace, htab, hbreak]

/-! ## Reading a plain text -/

lemma readPlain_space (indent : Nat) (blanks : List Char) (n k : Nat) (rest : List Glyph) :
    readPlain false indent (.blanks blanks) (⟨' ', n, k⟩ :: rest) =
      readPlain false indent (.blanks (blanks ++ [' '])) rest := by
  simp [readPlain, Glyph.isBreak, Glyph.isBlank, isBreak, Gap.hasBreak, Gap.addBlank]

lemma readPlain_char {c : Char} (hbreak : isBreak c = false) (hspace : c ≠ ' ') (htab : c ≠ '\t')
    {indent k : Nat} {blanks : List Char} (hgap : blanks ≠ [] → indent ≤ k ∧ k ≠ 0 ∧ c ≠ '#')
    {n : Nat} {rest : List Glyph} (hcolon : c = ':' → atGap rest = false) :
    readPlain false indent (.blanks blanks) (⟨c, n, k⟩ :: rest) =
      (readPlain false indent Gap.none rest).map fun (s, broke, rest) =>
        (blanks ++ c :: s, broke, rest) := by
  have hends : endsPlain false ⟨c, n, k⟩ rest = false := by
    by_cases hc : c = ':' <;> simp [endsPlain, hc, hcolon]
  have hstop : (!(Gap.blanks blanks).isEmpty && ((!false && decide (k < indent)) ||
      atAnyMarker (⟨c, n, k⟩ :: rest) || c == '#')) = false := by
    by_cases hblanks : blanks = []
    · simp [Gap.isEmpty, hblanks]
    · obtain ⟨hle, hk, hhash⟩ := hgap hblanks
      simp [hle, hhash, atAnyMarker_of_column (g := ⟨c, n, k⟩) hk]
  rw [readPlain]
  simp only [Glyph.isBreak, hbreak, Glyph.isBlank, hstop, hends, isStrayColon]
  simp [hspace, htab, Gap.text]

/-- The words of a plain text are read one after the other, and then what stands behind it. -/
lemma readPlain_append {t : List Char} (hne : t ≠ [])
    (hprint : ∀ c ∈ t, isPrintable c = true ∧ isBreak c = false) (hlast : t.getLast? ≠ some ' ')
    {before : Option Char} (hinner : hasInnerIndicator before t = false) {indent k : Nat}
    {blanks : List Char} (hblanks : blanks ≠ [] → indent ≤ k ∧ isBlankOrEnd before = true)
    (hindent : indent ≤ k + 1) (hk : blanks ≠ [] → k ≠ 0) (n : Nat) (behind : List Char) :
    readPlain false indent (.blanks blanks) (Glyph.ofCharsAt n k (t ++ behind)) =
      (readPlain false indent Gap.none (Glyph.ofCharsAt n (k + t.length) behind)).map
        fun (s, broke, rest) => (blanks ++ t ++ s, broke, rest) := by
  induction t generalizing before k blanks with
  | nil => exact absurd rfl hne
  | cons c t ih =>
    obtain ⟨hc, hbreak⟩ := hprint c List.mem_cons_self
    have hrest : ∀ d ∈ t, isPrintable d = true ∧ isBreak d = false :=
      fun d hd => hprint d (List.mem_cons_of_mem _ hd)
    have hflat : Flat t := fun d hd => .inr (hrest d hd)
    rw [hasInnerIndicator, Bool.or_eq_false_iff, Bool.or_eq_false_iff] at hinner
    obtain ⟨⟨hhash, hcolon⟩, hinner⟩ := hinner
    have hlength : k + 1 + t.length = k + (c :: t).length := by
      rw [List.length_cons]
      omega
    rw [List.cons_append, ofCharsAt_cons (.inr ⟨hc, hbreak⟩)]
    by_cases hspace : c = ' '
    · subst hspace
      have ht : t ≠ [] := by
        rintro rfl
        exact hlast rfl
      have hlast' : t.getLast? ≠ some ' ' := by
        rwa [List.getLast?_cons_of_ne_nil ht] at hlast
      rw [readPlain_space, ih ht hrest hlast' hinner (fun _ => ⟨hindent, rfl⟩) (by omega)
        (fun _ => Nat.succ_ne_zero k), hlength]
      simp
    · have hgap : blanks ≠ [] → indent ≤ k ∧ k ≠ 0 ∧ c ≠ '#' := by
        intro hb
        refine ⟨(hblanks hb).1, hk hb, ?_⟩
        rintro rfl
        simp [(hblanks hb).2] at hhash
      have hrestGap : c = ':' → atGap (Glyph.ofCharsAt n (k + 1) (t ++ behind)) = false := by
        intro hc
        exact atGap_append (by simpa [hc] using hcolon) hflat n (k + 1) behind
      rw [readPlain_char hbreak hspace (ne_tab_of_isPrintable hc) hgap hrestGap]
      by_cases ht : t = []
      · subst ht
        simp
      · have hlast' : t.getLast? ≠ some ' ' := by
          rwa [List.getLast?_cons_of_ne_nil ht] at hlast
        rw [Gap.none, ih ht hrest hlast' hinner (fun hb => absurd rfl hb) (by omega)
          (fun hb => absurd rfl hb), hlength, Gap.none]
        cases readPlain false indent (.blanks []) (Glyph.ofCharsAt n (k + (c :: t).length) behind) <;>
          simp

/-- After the break behind a plain text, everything up to the next token is passed over. -/
lemma readPlain_follows {column indent : Nat} (hlt : column < indent) {lines : List Line}
    (h : Follows column lines) (first : Option Char) (more : List Char) (n : Nat) :
    ∃ rest, readPlain false indent (.breaks first more) (Glyph.ofCharsAt n 0 (write lines)) =
        some ([], true, rest) ∧ Resumes n lines rest := by
  induction h generalizing n more with
  | nil => exact ⟨[], rfl, ⟨rfl, by simp⟩⟩
  | blank level h ih =>
    obtain ⟨rest, hread, hrest⟩ := ih (more ++ ['\n']) (n + 1)
    refine ⟨rest, ?_, ?_, fun g hg => ?_⟩
    · rw [write_blank, ofCharsAt_newline, readPlain]
      simpa [Glyph.isBreak, isBreak, Gap.addBreak] using hread
    · rw [write_blank, toToken_newline]
      exact hrest.toToken_eq
    · exact ⟨(hrest.head g hg).1, by have := (hrest.head g hg).2; omega⟩
  | line hle hc text lines =>
    rename_i level c
    have hspaces (width k : Nat) (behind : List Char) :
        readPlain false indent (.breaks first more)
            (Glyph.ofCharsAt n k (List.replicate width ' ' ++ behind)) =
          readPlain false indent (.breaks first more) (Glyph.ofCharsAt n (k + width) behind) := by
      induction width generalizing k with
      | zero => rfl
      | succ width ih =>
        rw [List.replicate_succ, List.cons_append, ofCharsAt_cons ordinary_space, readPlain]
        simp [Glyph.isBreak, Glyph.isBlank, isBreak, Gap.addBlank, ih, Nat.add_assoc,
          Nat.add_comm 1]
    refine ⟨⟨c, n, 2 * level⟩ ::
      Glyph.ofCharsAt n (2 * level + 1) (text ++ '\n' :: write lines), ?_, ?_, ?_⟩
    · rw [write_line _ (List.cons_ne_nil _ _), hspaces, List.cons_append,
        ofCharsAt_cons hc.ordinary, Nat.zero_add, readPlain]
      have hbefore : 2 * level < indent := by omega
      simp [Glyph.isBreak, Glyph.isBlank, hc.ordinary.not_isBreak, hc.ne_space, hc.ne_tab,
        Gap.isEmpty, Gap.hasBreak, hbefore]
    · rw [toToken_line hc, ← ofCharsAt_cons hc.ordinary, toToken_solid hc]
    · simp [Glyph.isBlank, hc.ne_space, hc.ne_tab]

/-- Before its first character a plain text may be taken to go on a word. -/
lemma Plain.hasInnerIndicator_eq_false {s : List Char} (h : Plain s) :
    hasInnerIndicator (some 'x') s = false := by
  have hindicator := h.hasIndicator_eq_false
  cases s with
  | nil => rfl
  | cons c t =>
    rw [hasIndicator, Bool.or_eq_false_iff] at hindicator
    have hcolon : (c == ':' && isBlankOrEnd t.head?) = false := by
      by_cases hc : c = ':'
      · subst hc
        simpa [hasLeadingIndicator] using hindicator.1
      · simp [hc]
    simp only [List.head?_cons, List.tail_cons] at hindicator
    have hword : isBlankOrEnd (some 'x') = false := by decide
    simp only [hasInnerIndicator, hcolon, hindicator.2, hword, Bool.and_false, Bool.or_false]

section

variable {s : List Char} {indent k : Nat}

/-- A plain text is read up to the colon behind it. -/
theorem Plain.readPlain_key (h : Plain s) (hindent : indent ≤ k + 1) (n : Nat) {x : Char}
    (hx : x = ' ' ∨ x = '\n') (behind : List Char) :
    readPlain false indent Gap.none (Glyph.ofCharsAt n k (s ++ ':' :: x :: behind)) =
      some (s, false, Glyph.ofCharsAt n (k + s.length) (':' :: x :: behind)) := by
  have hgap (m : Nat) : atGap (Glyph.ofCharsAt n m (x :: behind)) = true := by
    rcases hx with rfl | rfl
    · rw [ofCharsAt_cons ordinary_space]
      rfl
    · rw [ofCharsAt_newline]
      rfl
  rw [Gap.none, readPlain_append h.ne_nil h.printable h.getLast?_ne h.hasInnerIndicator_eq_false
    (fun hb => absurd rfl hb) hindent (fun hb => absurd rfl hb), ofCharsAt_cons (by decide),
    readPlain]
  simp [Glyph.isBreak, Glyph.isBlank, isBreak, Gap.none, Gap.isEmpty, isStrayColon, endsPlain, hgap,
    Gap.hasBreak]

/-- A plain text at the end of a document is read whole. -/
theorem Plain.readPlain_end (h : Plain s) (hindent : indent ≤ k + 1) (n : Nat) :
    readPlain false indent Gap.none (Glyph.ofCharsAt n k s) = some (s, false, []) := by
  have hread := readPlain_append h.ne_nil h.printable h.getLast?_ne h.hasInnerIndicator_eq_false
    (fun hb => absurd rfl hb) hindent (fun hb => absurd rfl hb) n []
  rw [List.append_nil] at hread
  rw [Gap.none, hread]
  simp [Glyph.ofCharsAt, readPlain, Gap.none, Gap.hasBreak]

/-- A plain text is read up to the end of its line, and what is left resumes below. -/
theorem Plain.readPlain_value (h : Plain s) (hindent : indent ≤ k + 1) {column : Nat}
    (hlt : column < indent) {lines : List Line} (hlines : Follows column lines) (n : Nat) :
    ∃ rest, readPlain false indent Gap.none (Glyph.ofCharsAt n k (s ++ '\n' :: write lines)) =
        some (s, true, rest) ∧ Resumes (n + 1) lines rest := by
  obtain ⟨rest, hread, hrest⟩ := readPlain_follows hlt hlines (some '\n') [] (n + 1)
  refine ⟨rest, ?_, hrest⟩
  rw [Gap.none, readPlain_append h.ne_nil h.printable h.getLast?_ne h.hasInnerIndicator_eq_false
    (fun hb => absurd rfl hb) hindent (fun hb => absurd rfl hb), ofCharsAt_newline, readPlain]
  simp [Glyph.isBreak, isBreak, Gap.none, Gap.addBreak, hread]

end

end Pipework.Yaml
