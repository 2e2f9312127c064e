import Pipework.Proofs.Yaml.Entry

/-!
# Control characters between double quotes

Of the control characters in a string only tabs, line feeds and carriage returns are escaped where
it is written between double quotes.  The others stand in the text as they are
(`mem_doubleQuoted_iff`).  Taking the escapes back gives the string all the same
(`unquoted_doubleQuoted`), but a reader of documents does more than that: next-line characters are
line breaks to it, which it folds, and it refuses every other control character.  So a string with
any of them is not read back (`controls_doubleQuoted`).
-/

namespace Pipework.Yaml

open Text (doubleQuoted escapeChar escapeChar_cases)

/-- The control characters: those below the space, and those from the delete character to the
no-break space. -/
def IsControl (c : Char) : Prop := c.toNat < 0x20 ∨ 0x7F ≤ c.toNat ∧ c.toNat < 0xA0

instance (c : Char) : Decidable (IsControl c) := inferInstanceAs (Decidable (_ ∨ _))

/-- The control character that is a line break. -/
def nextLine : Char := '\u0085'

/-- The control characters that are written as an escape. -/
def escapedControls : List Char := ['\n', '\t', '\r']

lemma isAllowed_iff_of_isControl {c : Char} (h : IsControl c) :
    Glyph.isAllowed c = true ↔ c ∈ escapedControls ∨ c = nextLine := by
  have hnat (d : Char) : c = d ↔ c.toNat = d.toNat := Char.toNat_inj.symm
  simp only [IsControl] at h
  simp only [escapedControls, nextLine, List.mem_cons, List.not_mem_nil, or_false, hnat,
    Glyph.isAllowed, Bool.or_eq_true, Bool.and_eq_true, beq_iff_eq, decide_eq_true_eq]
  simp only [Char.reduceToNat]
  omega

/-! ## What is written -/

lemma mem_escapeChar_iff {c d : Char} (h : IsControl d) :
    d ∈ escapeChar c ↔ d = c ∧ d ∉ escapedControls := by
  have hprintable : ∀ p ∈ Text.escapes, ¬IsControl p.2 ∧
      (IsControl p.1 → p.1 ∈ escapedControls) := by decide
  have hslash : d ≠ '\\' := by
    rintro rfl
    exact absurd h (by decide)
  rcases escapeChar_cases c with ⟨e, he, hescape⟩ | ⟨hself, hc⟩
  · obtain ⟨hletter, hcontrol⟩ := hprintable _ he
    have hne : d ≠ e := fun heq => hletter (heq ▸ h)
    rw [hescape]
    refine iff_of_false (by simp [hslash, hne]) ?_
    rintro ⟨rfl, hescaped⟩
    exact hescaped (hcontrol h)
  · have hescaped : c ∉ escapedControls :=
      fun hmem => hc (List.mem_cons_of_mem _ (List.mem_cons_of_mem _ hmem))
    rw [hself, List.mem_singleton]
    exact ⟨fun heq => ⟨heq, heq ▸ hescaped⟩, fun heq => heq.1⟩

/-- The control characters of the text are those of the string that are not escaped. -/
theorem mem_doubleQuoted_iff {c : Char} (h : IsControl c) (s : List Char) :
    c ∈ doubleQuoted s ↔ c ∈ s ∧ c ∉ escapedControls := by
  have hquote : c ≠ '"' := by
    rintro rfl
    exact absurd h (by decide)
  simp only [doubleQuoted, List.mem_append, List.mem_cons, List.mem_flatMap,
    mem_escapeChar_iff h, hquote, List.not_mem_nil, or_false, false_or]
  constructor
  · rintro ⟨d, hd, rfl, hescaped⟩
    exact ⟨hd, hescaped⟩
  · rintro ⟨hc, hescaped⟩
    exact ⟨c, hc, rfl, hescaped⟩

/-! ## Escapes taken back -/

/-- The character with a number in hexadecimal. -/
def charOfCode? (ds : List Char) : Option Char := do
  let n ← Decimal.digits? 16 ds
  if h : n.isValidChar then some (Char.ofNatAux n h) else none

/-- The string that the inside of a quoted text stands for, with the closing quote behind it.  All
escapes of the format count, and every other character stands for itself. -/
def unquotedBody : List Char → Option (List Char)
  | [] => none
  | c :: rest =>
    if c = '"' then if rest = [] then some [] else none
    else if c = '\\' then
      let escaped (d : Option Char) (after : Option (List Char)) : Option (List Char) := do
        pure ((← d) :: (← after))
      match rest with
      | 'x' :: a :: b :: more => escaped (charOfCode? [a, b]) (unquotedBody more)
      | 'u' :: a :: b :: c :: d :: more => escaped (charOfCode? [a, b, c, d]) (unquotedBody more)
      | 'U' :: a :: b :: c :: d :: e :: f :: g :: h :: more =>
        escaped (charOfCode? [a, b, c, d, e, f, g, h]) (unquotedBody more)
      | e :: more => escaped (unescape? e) (unquotedBody more)
      | [] => none
    else (unquotedBody rest).map (c :: ·)

/-- The string that a text between double quotes stands for by its escapes. -/
def unquoted : List Char → Option (List Char)
  | '"' :: rest => unquotedBody rest
  | _ => none

lemma unquotedBody_escape {c e : Char} (he : e ∈ ['"', '\\', 'n', 't', 'r'])
    (hc : unescape? e = some c) (rest : List Char) :
    unquotedBody ('\\' :: e :: rest) = (unquotedBody rest).map (c :: ·) := by
  simp only [List.mem_cons, List.not_mem_nil, or_false] at he
  rcases he with rfl | rfl | rfl | rfl | rfl <;> simp [unquotedBody, hc] <;>
    cases unquotedBody rest <;> rfl

/-- Every string comes back when its escapes are taken back. -/
theorem unquoted_doubleQuoted (s : List Char) : unquoted (doubleQuoted s) = some s := by
  have hbody : unquotedBody (s.flatMap escapeChar ++ ['"']) = some s := by
    induction s with
    | nil => rfl
    | cons c s ih =>
      rw [List.flatMap_cons, List.append_assoc]
      rcases escapeChar_cases c with ⟨e, he, hescape⟩ | ⟨hself, hc⟩
      · obtain ⟨hletter, hstands⟩ := unescape?_of_mem he
        rw [hescape, List.cons_append, List.singleton_append,
          unquotedBody_escape hletter hstands, ih]
        rfl
      · simp only [List.mem_cons, not_or] at hc
        rw [hself, List.singleton_append, unquotedBody, if_neg hc.1, if_neg hc.2.1, ih]
        rfl
  exact hbody

/-! ## Next-line characters

A reader folds them, so they are in nothing that it reads between the quotes. -/

/-- A character that is neither in the blanks nor among the breaks of a gap. -/
def Gap.Lacks (x : Char) : Gap → Prop
  | blanks s => x ∉ s
  | breaks first more => first ≠ some x ∧ x ∉ more

section

variable {x : Char} {gap : Gap}

lemma Gap.Lacks.addBlank {c : Char} (h : gap.Lacks x) (hc : c ≠ x) : (gap.addBlank c).Lacks x := by
  cases gap with
  | blanks s => simpa [Gap.addBlank, Gap.Lacks, hc.symm] using h
  | breaks first more => exact h

lemma Gap.Lacks.addBreak {c : Char} (h : gap.Lacks x) (hc : c ≠ x) : (gap.addBreak c).Lacks x := by
  cases gap with
  | blanks s => simp [Gap.addBreak, Gap.Lacks, hc]
  | breaks first more => simpa [Gap.addBreak, Gap.Lacks, hc.symm] using h

lemma Gap.Lacks.notMem_text (h : gap.Lacks x) (hx : x ≠ ' ') : x ∉ gap.text := by
  match gap with
  | .blanks s => exact h
  | .breaks .none more => exact h.2
  | .breaks (some c) more =>
    have hc : x ≠ c := fun heq => h.1 (congrArg some heq.symm)
    have hmore : x ∉ more := h.2
    simp only [Gap.text]
    split
    · split
      · simpa using hx
      · exact hmore
    · simp [hc, hmore]

end

/-- Every character but a carriage return is one glyph; a next-line character becomes a line
feed. -/
lemma exists_ofCharsAt_cons {c : Char} (hreturn : c ≠ '\r') (n k : Nat) (rest : List Char) :
    ∃ g n' k', Glyph.ofCharsAt n k (c :: rest) = g :: Glyph.ofCharsAt n' k' rest ∧
      g.char ≠ nextLine ∧ (g.char = c ∨ g.char = '\n') := by
  rw [Glyph.ofCharsAt]
  · split
    · exact ⟨_, _, _, rfl, (by decide : '\n' ≠ nextLine), .inr rfl⟩
    · rename_i hc
      have hnext : c ≠ nextLine := by
        rintro rfl
        exact hc (by decide)
      split <;> exact ⟨_, _, _, rfl, hnext, .inl rfl⟩
  · exact fun _ heq => absurd heq hreturn

/-- What is read of a string between double quotes ends with the text, and has no next-line
characters, wherever the string has some. -/
lemma notMem_of_readDouble {s t : List Char} {gap : Gap} {n k : Nat} {rest : List Glyph}
    (hgap : gap.Lacks nextLine)
    (h : readDouble gap (Glyph.ofCharsAt n k (s.flatMap escapeChar ++ ['"'])) = some (t, rest)) :
    rest = [] ∧ nextLine ∉ t := by
  induction s generalizing gap n k t rest with
  | nil =>
    have hclose : readDouble gap (Glyph.ofCharsAt n k ['"']) = some (gap.text, []) := by
      rw [ofCharsAt_cons (by decide)]
      simp [readDouble, Glyph.isBreak, Glyph.isBlank, isBreak, Glyph.ofCharsAt, atAnyMarker,
        atMarker]
    rw [List.flatMap_nil, List.nil_append, hclose, Option.some.injEq, Prod.mk.injEq] at h
    exact ⟨h.2.symm, h.1 ▸ hgap.notMem_text (by decide)⟩
  | cons c s ih =>
    have hnone : Gap.none.Lacks nextLine := by simp [Gap.none, Gap.Lacks]
    -- what is read behind the character has none, nor has the gap in front of it
    have hread {d : Char} (hd : d ≠ nextLine) {n' k' : Nat} (h : ((readDouble Gap.none
        (Glyph.ofCharsAt n' k' (s.flatMap escapeChar ++ ['"']))).map
          fun found => (gap.text ++ d :: found.1, found.2)) = some (t, rest)) :
        rest = [] ∧ nextLine ∉ t := by
      obtain ⟨⟨t', rest'⟩, hbehind, heq⟩ := Option.map_eq_some_iff.1 h
      obtain ⟨rfl, rfl⟩ := Prod.mk.injEq .. ▸ heq
      obtain ⟨hrest, ht'⟩ := ih hnone hbehind
      exact ⟨hrest, by simp [hgap.notMem_text (by decide), hd.symm, ht']⟩
    rw [List.flatMap_cons, List.append_assoc] at h
    rcases escapeChar_cases c with ⟨e, he, hescape⟩ | ⟨hself, hc⟩
    · obtain ⟨hletter, hstands⟩ := unescape?_of_mem he
      have hnext : c ≠ nextLine := by
        rintro rfl
        exact absurd hstands (by decide +revert)
      have hletters : Flat ['"', '\\', 'n', 't', 'r'] := by decide
      rw [hescape, List.cons_append, List.singleton_append, ofCharsAt_cons (by decide),
        ofCharsAt_cons (hletters e hletter), readDouble_escape hletter hstands] at h
      exact hread hnext h
    · simp only [List.mem_cons, List.not_mem_nil, or_false, not_or] at hc
      obtain ⟨hquote, hslash, -, -, hreturn⟩ := hc
      obtain ⟨g, n', k', hglyph, hnext, hchar⟩ :=
        exists_ofCharsAt_cons hreturn n k (s.flatMap escapeChar ++ ['"'])
      have hne {x : Char} (hx : c ≠ x) (hfeed : '\n' ≠ x) : g.char ≠ x := by
        rcases hchar with heq | heq <;> rwa [heq]
      rw [hself, List.singleton_append, hglyph, readDouble] at h
      split at h
      · exact ih (hgap.addBreak hnext) h
      · split at h
        · exact ih (hgap.addBlank hnext) h
        · split at h
          · cases h
          · simp only [beq_iff_eq, hne hquote (by decide), hne hslash (by decide), if_false] at h
            exact hread hnext h

/-! ## Documents of one quoted scalar -/

namespace Scan

/-- The scan at a quote that begins a document. -/
def atQuote (gs : List Glyph) : Scan := ⟨⟨'"', 0, 0⟩ :: gs, [], 0, true⟩

variable {gs : List Glyph}

lemma toToken_atQuote (gs : List Glyph) :
    toToken (atQuote gs).inFlow (atQuote gs).keyAllowed false (atQuote gs).rest =
      (true, ⟨'"', 0, 0⟩ :: gs) := by
  simp [atQuote, toToken, Glyph.isBreak, isBreak]

/-- A scalar that ends with the document is the only token. -/
lemma tokens_atQuote {t : List Char} (h : readDouble Gap.none gs = some (t, [])) (fuel : Nat) :
    (atQuote gs).tokens (fuel + 1 + 1) = some [.scalar false t] := by
  have hbegins := begins_of_quote (.inr rfl : '"' = '\'' ∨ '"' = '"') gs
  have hentry : readEntry (atQuote gs).inFlow (atQuote gs).inner (⟨'"', 0, 0⟩ :: gs) =
      some ([.scalar false t], false, []) := by
    refine readEntry_of_readContent hbegins ?_
    simp [readContent, h]
  have hstep : (atQuote gs).step ⟨'"', 0, 0⟩ gs = some ([.scalar false t], ⟨[], [], 0, false⟩) := by
    rw [step_entry (s := atQuote gs) hbegins (fun _ => rfl) hentry]
    simp [atQuote, afterColon?, skipBlanks, needsKey]
  rw [run_step (toToken_atQuote gs) (.inr rfl) hstep (fuel + 1), tokens_end]
  rfl

/-- A scalar without an end is no token. -/
lemma tokens_atQuote_eq_none (h : readDouble Gap.none gs = none) (fuel : Nat) :
    (atQuote gs).tokens (fuel + 1) = none := by
  have hmarker := (begins_of_quote (.inr rfl : '"' = '\'' ∨ '"' = '"') gs).marker 0 0
  have hentry : readEntry false 0 (⟨'"', 0, 0⟩ :: gs) = none := by
    simp [readEntry, readProperty, readContent, h]
  have hstep : (atQuote gs).step ⟨'"', 0, 0⟩ gs = none := by
    simp [step, atQuote, inFlow, inner, hmarker, hentry]
  rw [tokens, toToken_atQuote]
  show ((atQuote gs).step ⟨'"', 0, 0⟩ gs >>= fun next => do
    pure (next.1 ++ (← next.2.tokens fuel))) = none
  rw [hstep]
  rfl

end Scan

section

variable {body t : List Char}

/-- A text that begins with a quote is scanned from there on if all its characters are allowed. -/
lemma ofText?_quote (h : ∀ c ∈ body, Glyph.isAllowed c = true) :
    ∃ fuel, Token.ofText? ('"' :: body) =
      (Scan.atQuote (Glyph.ofCharsAt 0 1 body)).tokens (fuel + 1 + 1) := by
  have hallowed : ('"' :: body).all Glyph.isAllowed = true :=
    List.all_eq_true.2 (List.forall_mem_cons.2 ⟨rfl, h⟩)
  have hmark : '"' ≠ Glyph.byteOrderMark := by decide
  have hglyphs : Glyph.ofChars? ('"' :: body) =
      some (⟨'"', 0, 0⟩ :: Glyph.ofCharsAt 0 1 body) := by
    rw [← ofCharsAt_cons (by decide)]
    simp only [Glyph.ofChars?, List.head?_cons, Option.some_beq_some, beq_eq_false_iff_ne.2 hmark,
      Bool.false_eq_true, if_false, hallowed, if_true]
  refine ⟨(Glyph.ofCharsAt 0 1 body).length, ?_⟩
  rw [Token.ofText?, hglyphs]
  rfl

/-- A quoted scalar that is the whole document is its value. -/
lemma read_quote (h : ∀ c ∈ body, Glyph.isAllowed c = true)
    (hread : readDouble Gap.none (Glyph.ofCharsAt 0 1 body) = some (t, [])) :
    read (String.ofList ('"' :: body)) = some (.string (String.ofList t)) := by
  obtain ⟨fuel, htokens⟩ := ofText?_quote h
  rw [Scan.tokens_atQuote hread] at htokens
  have hvalue : Node.SaysJson 1 (.scalar none none false t) (.string (String.ofList t)) :=
    .text (by simp)
  have hnode : Node.ofTokens? [.scalar false t] = some (some (.scalar none none false t)) :=
    (Node.Whole.scalar false t).ofTokens?_eq
  rw [read, String.toList_ofList, htokens]
  simp [hnode, hvalue.value?_eq (by decide)]

/-- Without an end of the scalar there is no value. -/
lemma read_quote_eq_none (h : ∀ c ∈ body, Glyph.isAllowed c = true)
    (hread : readDouble Gap.none (Glyph.ofCharsAt 0 1 body) = none) :
    read (String.ofList ('"' :: body)) = none := by
  obtain ⟨fuel, htokens⟩ := ofText?_quote h
  rw [read, String.toList_ofList, htokens, Scan.tokens_atQuote_eq_none hread]
  rfl

/-- A character that is not allowed is enough for a text to say nothing. -/
lemma read_quote_of_not_isAllowed {c : Char} (hc : c ∈ body) (h : Glyph.isAllowed c = false) :
    read (String.ofList ('"' :: body)) = none := by
  have hmark : '"' ≠ Glyph.byteOrderMark := by decide
  have hall : ('"' :: body).all Glyph.isAllowed = false :=
    List.all_eq_false.2 ⟨c, List.mem_cons_of_mem _ hc, by simp [h]⟩
  have hglyphs : Glyph.ofChars? ('"' :: body) = none := by
    simp only [Glyph.ofChars?, List.head?_cons, Option.some_beq_some, beq_eq_false_iff_ne.2 hmark,
      Bool.false_eq_true, if_false, hall]
  rw [read, String.toList_ofList, Token.ofText?, hglyphs]
  rfl

end

/-! ## Strings between double quotes, read as documents -/

/-- What stands behind the opening quote. -/
lemma doubleQuoted_eq (s : List Char) :
    doubleQuoted s = '"' :: (s.flatMap escapeChar ++ ['"']) := rfl

lemma read_doubleQuoted {s : List Char} (h : Quotable s) :
    read (String.ofList (doubleQuoted s)) = some (.string (String.ofList s)) := by
  have hflat := (written_doubleQuoted h).flat
  obtain ⟨m, -, hread⟩ := readDouble_append (fun c hc => escapes_escapeChar (h c hc)) [] [] 0 0
  rw [doubleQuoted_eq]
  exact read_quote (fun c hc => (hflat c (List.mem_cons_of_mem _ hc)).isAllowed.1) hread

/-- A control character that is not escaped keeps the string from being read back: either the text
is no document at all, or the character is a line break in it. -/
lemma read_doubleQuoted_of_isControl {s : List Char} {c : Char} (hc : c ∈ s) (h : IsControl c)
    (hescaped : c ∉ escapedControls) :
    read (String.ofList (doubleQuoted s)) ≠ some (.string (String.ofList s)) ∧
      (c ≠ nextLine → read (String.ofList (doubleQuoted s)) = none) := by
  have hmem : c ∈ s.flatMap escapeChar ++ ['"'] :=
    List.mem_append_left _ (List.mem_flatMap.2 ⟨c, hc, (mem_escapeChar_iff h).2 ⟨rfl, hescaped⟩⟩)
  rw [doubleQuoted_eq]
  by_cases hallowed : ∀ d ∈ s.flatMap escapeChar ++ ['"'], Glyph.isAllowed d = true
  · have hnext : c = nextLine :=
      ((isAllowed_iff_of_isControl h).1 (hallowed c hmem)).resolve_left hescaped
    refine ⟨fun hread => ?_, fun hne => absurd hnext hne⟩
    cases hdouble : readDouble Gap.none (Glyph.ofCharsAt 0 1 (s.flatMap escapeChar ++ ['"'])) with
    | none =>
      rw [read_quote_eq_none hallowed hdouble] at hread
      cases hread
    | some found =>
      obtain ⟨t, rest⟩ := found
      obtain ⟨rfl, ht⟩ := notMem_of_readDouble (by simp [Gap.none, Gap.Lacks]) hdouble
      rw [read_quote hallowed hdouble, Option.some.injEq, Json.string.injEq,
        String.ofList_inj] at hread
      exact ht (hread ▸ hnext ▸ hc)
  · simp only [not_forall, Bool.not_eq_true] at hallowed
    obtain ⟨d, hd, hrefused⟩ := hallowed
    have hnone := read_quote_of_not_isAllowed hd hrefused
    exact ⟨by rw [hnone]; simp, fun _ => hnone⟩

/-- Of the control characters of a string exactly the tabs, line feeds and carriage returns are not
in its quoted text.  Taking the escapes back always gives the string.  A reader of documents gets it
back where all else in it is printable.  Any other control character makes the text unreadable,
except the next-line character, which does not come back. -/
theorem controls_doubleQuoted (s : List Char) :
    (∀ c, IsControl c → (c ∈ doubleQuoted s ↔ c ∈ s ∧ c ∉ escapedControls)) ∧
      unquoted (doubleQuoted s) = some s ∧
      (Quotable s → read (String.ofList (doubleQuoted s)) = some (.string (String.ofList s))) ∧
      ∀ c ∈ s, IsControl c → c ∉ escapedControls →
        read (String.ofList (doubleQuoted s)) ≠ some (.string (String.ofList s)) ∧
          (c ≠ nextLine → read (String.ofList (doubleQuoted s)) = none) :=
  ⟨fun _ h => mem_doubleQuoted_iff h s, unquoted_doubleQuoted s, read_doubleQuoted,
    fun _ => read_doubleQuoted_of_isControl⟩

/-- A bell behind a line feed: the line feed is escaped, and alone comes back, and the bell is not
escaped, so that there is no document. -/
theorem controls_doubleQuoted_bell :
    IsControl '\n' ∧ '\n' ∉ doubleQuoted "ring\n\x07".toList ∧
      IsControl '\x07' ∧ '\x07' ∈ doubleQuoted "ring\n\x07".toList ∧
      unquoted (doubleQuoted "ring\n\x07".toList) = some "ring\n\x07".toList ∧
      read (String.ofList (doubleQuoted "ring\n\x07".toList)) = none ∧
      read (String.ofList (doubleQuoted "ring\n".toList)) = some (.string "ring\n") := by
  obtain ⟨hmem, hunquoted, -, hread⟩ := controls_doubleQuoted "ring\n\x07".toList
  obtain ⟨-, -, hfeedRead, -⟩ := controls_doubleQuoted "ring\n".toList
  have hfeed : IsControl '\n' := by decide
  have hbell : IsControl '\x07' := by decide
  refine ⟨hfeed, ?_, hbell, (hmem _ hbell).2 (by decide), hunquoted, ?_, ?_⟩
  · rw [hmem _ hfeed]
    decide
  · exact (hread _ (by decide) hbell (by decide)).2 (by decide)
  · exact hfeedRead (by decide)

end Pipework.Yaml
