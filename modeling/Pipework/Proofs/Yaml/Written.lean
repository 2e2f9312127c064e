import Mathlib.Data.Option.Basic
import Mathlib.Tactic.ByContra
import Pipework.Proofs.Yaml.Plain

/-!
# Scalars on one line

`Written w plain s` says that `w` is a way to write the string `s` on one line: plain, or between
quotes of either kind.  Wherever such a text stands, it is read as that scalar, up to the colon
behind it (`readEntry_key`) or up to the end of its line (`readEntry_value`).  The form that
`scalar` chooses is always one of them (`written_scalar`).
-/

namespace Pipework.Yaml

open Layout

/-- The ways to write a string on one line, and whether the scalar is plain. -/
inductive Written : List Char → Bool → List Char → Prop where
  | plain {s : List Char} (h : Plain s) : Written s true s
  | single {s : List Char} (h : Flat s) :
    Written ('\'' :: (s.flatMap Text.doubleSingleQuote ++ ['\''])) false s
  | double {escape : Char → List Char} {s : List Char} (h : ∀ c ∈ s, Escapes escape c) :
    Written ('"' :: (s.flatMap escape ++ ['"'])) false s

/-! ## The form that is chosen -/

/-- The characters of a string that is written: those of a line, and line feeds. -/
def Writable (s : List Char) : Prop := ∀ c ∈ s, c = '\n' ∨ Ordinary c

instance (s : List Char) : Decidable (Writable s) := List.decidableBAll _ s

lemma Writable.flat {s : List Char} (h : Writable s) (hfeed : '\n' ∉ s) : Flat s :=
  fun c hc => (h c hc).resolve_left fun heq => hfeed (heq ▸ hc)

/-- The characters of a string that a scalar can hold: carriage returns besides those that can be
written anywhere. -/
def Quotable (s : List Char) : Prop := ∀ c ∈ s, c = '\n' ∨ c = '\r' ∨ Ordinary c

instance (s : List Char) : Decidable (Quotable s) := List.decidableBAll _ s

lemma Writable.quotable {s : List Char} (h : Writable s) : Quotable s :=
  fun c hc => (h c hc).imp_right .inr

lemma Quotable.flat {s : List Char} (h : Quotable s)
    (hbreak : s.any (fun c => c == '\n' || c == '\r') = false) : Flat s := by
  intro c hc
  have hne := List.any_eq_false.1 hbreak c hc
  simp only [Bool.or_eq_true, beq_iff_eq, not_or] at hne
  exact ((h c hc).resolve_left hne.1).resolve_left hne.2

lemma written_doubleQuoted {s : List Char} (h : Quotable s) :
    Written (Text.doubleQuoted s) false s :=
  .double fun c hc => escapes_escapeChar (h c hc)

lemma written_singleQuoted {s : List Char} (h : Flat s) :
    Written (Text.singleQuoted s) false s :=
  .single h

lemma Resolved.eq_text {r : Resolved} (h : r.isText = true) : r = .text := by
  cases r <;> first | rfl | cases h

/-- A string is plain only if it can stand plain and means itself there. -/
lemma plain_of_form {s : List Char} (h : form s = .plain) : Plain s ∧ resolve s = .text := by
  unfold form at h
  split at h
  · split at h <;> cases h
  · split at h
    · rename_i hchoice
      simp only [Bool.and_eq_true] at hchoice
      have htext : resolve s = .text := Resolved.eq_text hchoice.1.1
      refine ⟨⟨?_, hchoice.2⟩, htext⟩
      rintro rfl
      simp [resolve] at htext
    · split at h <;> cases h

/-- Every string that a scalar can hold is written in one of the ways, and is read back as a string:
it is plain only if a plain scalar with its text means that text. -/
theorem written_scalar {s : List Char} (h : Quotable s) :
    ∃ plain, Written (scalar s) plain s ∧ (plain = true → resolve s = .text) := by
  cases hany : s.any (fun c => c == '\n' || c == '\r') with
  | true =>
    refine ⟨false, ?_, by simp⟩
    rw [scalar, if_pos hany]
    exact written_doubleQuoted h
  | false =>
    have hflat := h.flat hany
    have hdouble : Written (writeDouble s) false s := .double fun c hc =>
      escapes_doubleChar (hflat c hc)
    rw [scalar, hany]
    simp only [writeInline]
    cases hform : form s with
    | plain =>
      obtain ⟨hplain, htext⟩ := plain_of_form hform
      exact ⟨true, .plain hplain, fun _ => htext⟩
    | single =>
      refine ⟨false, ?_, by simp⟩
      have hwritten := Written.single hflat
      rwa [← singleBody_eq_flatMap hflat topIndent] at hwritten
    | double => exact ⟨false, hdouble, by simp⟩
    | literal => exact ⟨false, hdouble, by simp⟩

/-! ## Where a scalar begins -/

namespace Written

variable {w s : List Char} {plain : Bool}

lemma flat (h : Written w plain s) : Flat w := by
  cases h with
  | plain h => exact h.flat
  | single h =>
    exact flat_cons.2 ⟨by decide, flat_append.2 ⟨flat_doubleSingleQuote h, by decide⟩⟩
  | double h => exact flat_cons.2 ⟨by decide, flat_append.2 ⟨Escapes.flat h, by decide⟩⟩

end Written

/-- A character that begins a scalar where it stands. -/
structure Begins (c : Char) (rest : List Glyph) : Prop where
  solid : Solid c
  ne : c ∉ ['[', ']', '\x7b', '\x7d', ',', '|', '>', '%', '&', '*', '!']
  indicator : c ∈ ['-', '?', ':'] → atGap rest = false
  marker (n k : Nat) : atAnyMarker (⟨c, n, k⟩ :: rest) = false

lemma begins_of_quote {c : Char} (h : c = '\'' ∨ c = '"') (rest : List Glyph) : Begins c rest where
  solid := by rcases h with rfl | rfl <;> decide
  ne := by rcases h with rfl | rfl <;> decide
  indicator hc := by rcases h with rfl | rfl <;> simp at hc
  marker n k := by
    rcases h with rfl | rfl <;> rcases rest with _ | ⟨y, _ | ⟨z, rest⟩⟩ <;> simp [atAnyMarker, atMarker]

/-- What may stand behind a scalar outside of brackets: nothing, the end of the line, or the colon
of a key. -/
inductive Ends : List Char → Prop where
  | document : Ends []
  | line (rest : List Char) : Ends ('\n' :: rest)
  | key {x : Char} (hx : x = ' ' ∨ x = '\n') (rest : List Char) : Ends (':' :: x :: rest)

/-- What stands behind a scalar begins with one of two characters. -/
lemma Ends.head {behind : List Char} (h : Ends behind) (n k : Nat) :
    ∀ g ∈ (Glyph.ofCharsAt n k behind).head?, g.char = '\n' ∨ g.char = ':' := by
  cases h with
  | document => simp [Glyph.ofCharsAt]
  | line rest => simp
  | key hx rest =>
    rw [ofCharsAt_cons (by decide)]
    simp

lemma Ends.unquoted {behind : List Char} (h : Ends behind) (n k : Nat) :
    Unquoted (Glyph.ofCharsAt n k behind) := by
  intro g hg
  rcases h.head n k g hg with hchar | hchar <;> rw [hchar] <;> decide

lemma not_atMarker_second {d : Char} {g : Glyph} {gs : List Glyph}
    (hne : ∀ h ∈ gs.head?, h.char ≠ d) : atMarker d (g :: gs) = false := by
  rcases gs with _ | ⟨h, _ | ⟨i, gs⟩⟩
  · rfl
  · rfl
  · simp [atMarker, hne h rfl]

lemma not_atMarker_third {d : Char} {g h : Glyph} {gs : List Glyph}
    (hne : h.char ≠ d ∨ ∀ i ∈ gs.head?, i.char ≠ d) : atMarker d (g :: h :: gs) = false := by
  cases gs with
  | nil => rfl
  | cons i gs =>
    rcases hne with hne | hne
    · simp [atMarker, hne]
    · simp [atMarker, hne i rfl]

/-- A plain text does not begin with a mark between documents, whatever follows it. -/
lemma Plain.not_atMarker {c : Char} {t : List Char} (h : Plain (c :: t)) {d : Char}
    (hd : d = '-' ∨ d = '.') {behind : List Char} (hbehind : Ends behind) (n k m l : Nat) :
    atMarker d (⟨c, n, k⟩ :: Glyph.ofCharsAt m l (t ++ behind)) = false := by
  have hleading := h.hasIndicator_eq_false
  rw [hasIndicator, Bool.or_eq_false_iff] at hleading
  have hflat := (flat_cons.1 h.flat).2
  have hne (l : Nat) : ∀ g ∈ (Glyph.ofCharsAt m l behind).head?, g.char ≠ d := by
    intro g hg
    rcases hbehind.head m l g hg with hchar | hchar <;> rcases hd with rfl | rfl <;> rw [hchar] <;>
      decide
  rcases t with _ | ⟨e, _ | ⟨f, t⟩⟩
  · exact not_atMarker_second (hne l)
  · rw [List.singleton_append, ofCharsAt_cons (hflat e (by simp))]
    exact not_atMarker_third (.inr (hne (l + 1)))
  · rw [List.cons_append, List.cons_append, ofCharsAt_cons (hflat e (by simp)),
      ofCharsAt_cons (hflat f (by simp))]
    by_cases hc : c = d
    · refine not_atMarker_third ?_
      simp only [List.head?_cons, Option.mem_some_iff, forall_eq']
      by_contra hmark
      rw [not_or, not_not, not_not] at hmark
      obtain ⟨rfl, rfl⟩ : e = d ∧ f = d := hmark
      rcases hd with rfl | rfl <;> simp [hasLeadingIndicator, hc] at hleading
    · simp [atMarker, hc]

/-- The characters that a plain text never begins with. -/
lemma Plain.notMem_leading {c : Char} {t : List Char} (h : Plain (c :: t)) :
    c ∉ "#,[]\x7b\x7d&*!|>'\"%@\x60".toList := by
  have hleading := h.hasIndicator_eq_false
  rw [hasIndicator, Bool.or_eq_false_iff] at hleading
  simp only [hasLeadingIndicator, Bool.or_eq_false_iff] at hleading
  rw [← decide_eq_false_iff_not, ← List.contains_eq_mem]
  exact hleading.1.1.1.1

/-- A plain text begins a scalar wherever it stands. -/
lemma Plain.begins {c : Char} {t : List Char} (h : Plain (c :: t)) {behind : List Char}
    (hbehind : Ends behind) (m l : Nat) : Begins c (Glyph.ofCharsAt m l (t ++ behind)) := by
  have hlead := h.notMem_leading
  obtain ⟨hprint, hbreak⟩ := h.printable c List.mem_cons_self
  have hspace : c ≠ ' ' := by
    rintro rfl
    have hallowed := h.allowed
    simp [plainAllowed] at hallowed
  refine ⟨⟨.inr ⟨hprint, hbreak⟩, hspace, ne_tab_of_isPrintable hprint, ?_⟩, ?_, ?_, ?_⟩
  · rintro rfl
    exact hlead (by decide)
  · intro hc
    refine hlead ?_
    have hsub : ['[', ']', '\x7b', '\x7d', ',', '|', '>', '%', '&', '*', '!'] ⊆
        "#,[]\x7b\x7d&*!|>'\"%@\x60".toList := by decide
    exact hsub hc
  · intro hc
    have hblank := h.hasIndicator_eq_false
    rw [hasIndicator, Bool.or_eq_false_iff] at hblank
    simp only [hasLeadingIndicator, Bool.or_eq_false_iff] at hblank
    have hmem : "?:-".toList.contains c = true := by
      simp only [List.mem_cons, List.not_mem_nil, or_false] at hc
      rcases hc with rfl | rfl | rfl <;> decide
    rw [hmem, Bool.true_and] at hblank
    exact atGap_append hblank.1.1.1.2 (flat_cons.1 h.flat).2 m l behind
  · intro n k
    rw [atAnyMarker, h.not_atMarker (.inl rfl) hbehind, h.not_atMarker (.inr rfl) hbehind]
    rfl

/-- A plain text is not taken for something else. -/
lemma Plain.startsPlain {c : Char} {t : List Char} (h : Plain (c :: t)) {behind : List Char}
    (hbehind : Ends behind) (n k m l : Nat) :
    startsPlain false (⟨c, n, k⟩ :: Glyph.ofCharsAt m l (t ++ behind)) = true := by
  have hbegins := h.begins hbehind m l
  have hsolid : Glyph.isSolid ⟨c, n, k⟩ = true := by
    simp [Glyph.isSolid, Glyph.isBlank, Glyph.isBreak, hbegins.solid.ne_space, hbegins.solid.ne_tab,
      hbegins.solid.ordinary.not_isBreak]
  rw [Yaml.startsPlain, hsolid, Bool.true_and]
  by_cases hc : c ∈ ['-', '?', ':']
  · rw [hbegins.indicator hc]
    simp only [List.mem_cons, List.not_mem_nil, or_false] at hc
    rcases hc with rfl | rfl | rfl <;> rfl
  · have hnot : c ∉ indicators := by
      intro hmem
      have hsplit : indicators ⊆ ['-', '?', ':'] ++ "#,[]\x7b\x7d&*!|>'\"%@\x60".toList := by
        decide
      exact (List.mem_append.1 (hsplit hmem)).elim hc h.notMem_leading
    simp [hnot]

/-! ## Reading a scalar -/

/-- What begins a scalar has no properties in front of it. -/
lemma readEntry_of_readContent {inFlow : Bool} {inner n k : Nat} {c : Char} {gs : List Glyph}
    (hc : Begins c gs) {token : Token} {broke : Bool} {rest : List Glyph}
    (h : readContent inFlow inner (⟨c, n, k⟩ :: gs) = some ([token], broke, rest)) :
    readEntry inFlow inner (⟨c, n, k⟩ :: gs) = some ([token], broke, rest) := by
  have hproperty : readProperty inFlow (⟨c, n, k⟩ :: gs) = some ([], ⟨c, n, k⟩ :: gs) := by
    have hne := hc.ne
    simp only [List.mem_cons, List.not_mem_nil, or_false, not_or] at hne
    simp [readProperty, hne]
  simp [readEntry, hproperty, h, guard]

namespace Written

variable {w s : List Char} {plain : Bool}

lemma ne_nil (h : Written w plain s) : w ≠ [] := by
  cases h with
  | plain h => exact h.ne_nil
  | single h => exact List.cons_ne_nil _ _
  | double h => exact List.cons_ne_nil _ _

/-- Every written scalar begins as one. -/
lemma begins {c : Char} {t : List Char} (h : Written (c :: t) plain s) {behind : List Char}
    (hbehind : Ends behind) (m l : Nat) : Begins c (Glyph.ofCharsAt m l (t ++ behind)) := by
  cases h with
  | plain h => exact h.begins hbehind m l
  | single h => exact begins_of_quote (.inl rfl) _
  | double h => exact begins_of_quote (.inr rfl) _

variable {inner k : Nat}

/-- A string between double quotes ends with the closing one, whatever is behind it. -/
lemma readContent_double {escape : Char → List Char} (h : ∀ c ∈ s, Escapes escape c)
    (behind : List Char) (inFlow : Bool) (inner n k : Nat) :
    readContent inFlow inner
        (Glyph.ofCharsAt n k ('"' :: (s.flatMap escape ++ ['"']) ++ behind)) =
      some ([.scalar false s], false,
        Glyph.ofCharsAt n (k + ('"' :: (s.flatMap escape ++ ['"'])).length) behind) := by
  obtain ⟨m, hm, hread⟩ := readDouble_append h [] behind n k
  rw [List.cons_append, List.append_assoc, List.singleton_append, ofCharsAt_cons (by decide)]
  simp [readContent, Gap.none, hread, hm, Nat.add_assoc]

/-- The quoted forms are read up to their end. -/
lemma readContent_quoted (h : Written w false s) {behind : List Char} (hbehind : Ends behind)
    (inFlow : Bool) (inner n k : Nat) :
    readContent inFlow inner (Glyph.ofCharsAt n k (w ++ behind)) =
      some ([.scalar false s], false, Glyph.ofCharsAt n (k + w.length) behind) := by
  cases h with
  | single h =>
    obtain ⟨m, hm, hread⟩ := readSingle_append h [] behind n k (hbehind.unquoted n)
    rw [List.cons_append, List.append_assoc, List.singleton_append, ofCharsAt_cons (by decide)]
    simp [readContent, Gap.none, hread, hm, Nat.add_assoc]
  | double h => exact readContent_double h behind inFlow inner n k

/-- A plain scalar is what is read where none of the other forms begins. -/
lemma readContent_plain {c : Char} {t : List Char} (h : Plain (c :: t)) {behind : List Char}
    (hbehind : Ends behind) (inner n k : Nat) :
    readContent false inner (Glyph.ofCharsAt n k (c :: t ++ behind)) =
      (readPlain false inner Gap.none (Glyph.ofCharsAt n k (c :: t ++ behind))).map
        fun (s, broke, rest) => ([.scalar true s], broke, rest) := by
  have hlead := h.notMem_leading
  have hne : c ≠ '*' ∧ c ≠ '\'' ∧ c ≠ '"' := by
    refine ⟨?_, ?_, ?_⟩ <;> (rintro rfl; exact hlead (by decide))
  rw [List.cons_append, ofCharsAt_cons (h.begins hbehind n (k + 1)).solid.ordinary]
  simp [readContent, hne, h.startsPlain hbehind]

/-- A scalar is read up to the colon behind it. -/
theorem readEntry_key (h : Written w plain s) (hinner : inner ≤ k + 1) (n : Nat) {x : Char}
    (hx : x = ' ' ∨ x = '\n') (behind : List Char) :
    readEntry false inner (Glyph.ofCharsAt n k (w ++ ':' :: x :: behind)) =
      some ([.scalar plain s], false, Glyph.ofCharsAt n (k + w.length) (':' :: x :: behind)) := by
  have hends : Ends (':' :: x :: behind) := .key hx behind
  have hcontent : readContent false inner (Glyph.ofCharsAt n k (w ++ ':' :: x :: behind)) =
      some ([.scalar plain s], false, Glyph.ofCharsAt n (k + w.length) (':' :: x :: behind)) := by
    cases plain with
    | false => exact h.readContent_quoted hends false inner n k
    | true =>
      obtain ⟨hplain⟩ := h
      obtain ⟨c, t, rfl⟩ := List.exists_cons_of_ne_nil hplain.ne_nil
      rw [readContent_plain hplain hends, hplain.readPlain_key hinner n hx]
      rfl
  obtain ⟨c, t, rfl⟩ := List.exists_cons_of_ne_nil h.ne_nil
  have hbegins := h.begins hends n (k + 1)
  rw [List.cons_append, ofCharsAt_cons hbegins.solid.ordinary] at hcontent ⊢
  exact readEntry_of_readContent hbegins hcontent

/-- A scalar at the end of a document is read whole. -/
theorem readEntry_end (h : Written w plain s) (hinner : inner ≤ k + 1) (n : Nat) :
    readEntry false inner (Glyph.ofCharsAt n k w) = some ([.scalar plain s], false, []) := by
  have hcontent : readContent false inner (Glyph.ofCharsAt n k w) =
      some ([.scalar plain s], false, []) := by
    cases plain with
    | false =>
      have hread := h.readContent_quoted .document false inner n k
      rwa [List.append_nil] at hread
    | true =>
      obtain ⟨hplain⟩ := h
      obtain ⟨c, t, rfl⟩ := List.exists_cons_of_ne_nil hplain.ne_nil
      have hread := readContent_plain hplain .document inner n k
      rw [List.append_nil] at hread
      rw [hread, hplain.readPlain_end hinner]
      rfl
  obtain ⟨c, t, rfl⟩ := List.exists_cons_of_ne_nil h.ne_nil
  have hbegins := h.begins .document n (k + 1)
  rw [List.append_nil] at hbegins
  rw [ofCharsAt_cons hbegins.solid.ordinary] at hcontent ⊢
  exact readEntry_of_readContent hbegins hcontent

/-- A scalar is read up to the end of its line, and what is left resumes below. -/
theorem readEntry_value (h : Written w plain s) (hinner : inner ≤ k + 1) {column : Nat}
    (hlt : column < inner) {lines : List Line} (hlines : Follows column lines) (n : Nat) :
    ∃ broke rest, readEntry false inner (Glyph.ofCharsAt n k (w ++ '\n' :: write lines)) =
        some ([.scalar plain s], broke, rest) ∧
      toToken false broke false rest =
        toToken false true false (Glyph.ofCharsAt (n + 1) 0 (write lines)) ∧
      ∀ g ∈ (skipBlanks rest).head?, g.char = ':' → n < g.line := by
  have hends : Ends ('\n' :: write lines) := .line _
  have hcontent : ∃ broke rest,
      readContent false inner (Glyph.ofCharsAt n k (w ++ '\n' :: write lines)) =
        some ([.scalar plain s], broke, rest) ∧
      toToken false broke false rest =
        toToken false true false (Glyph.ofCharsAt (n + 1) 0 (write lines)) ∧
      ∀ g ∈ (skipBlanks rest).head?, g.char = ':' → n < g.line := by
    cases plain with
    | false =>
      refine ⟨false, _, h.readContent_quoted hends false inner n k, toToken_newline _ _ _, ?_⟩
      rw [ofCharsAt_newline]
      simp [skipBlanks, Glyph.isBlank]
    | true =>
      obtain ⟨hplain⟩ := h
      obtain ⟨rest, hread, hrest⟩ := hplain.readPlain_value hinner hlt hlines n
      obtain ⟨c, t, rfl⟩ := List.exists_cons_of_ne_nil hplain.ne_nil
      refine ⟨true, rest, ?_, hrest.toToken_eq, ?_⟩
      · rw [readContent_plain hplain hends, hread]
        rfl
      · cases rest with
        | nil => simp [skipBlanks]
        | cons g rest =>
          have hg := hrest.head g rfl
          simp [skipBlanks, hg.1]
          omega
  obtain ⟨broke, rest, hcontent, htoken, hhead⟩ := hcontent
  obtain ⟨c, t, rfl⟩ := List.exists_cons_of_ne_nil h.ne_nil
  have hbegins := h.begins hends n (k + 1)
  refine ⟨broke, rest, ?_, htoken, hhead⟩
  rw [List.cons_append, ofCharsAt_cons hbegins.solid.ordinary] at hcontent ⊢
  exact readEntry_of_readContent hbegins hcontent

end Written

end Pipework.Yaml
