import Pipework.Proofs.Yaml.Inline
import Pipework.Text.Word

/-!
# How scalars spell their strings

A scalar spells its string character by character, whatever its form: `Spells escaped s t` says that
`t` is put together from what is written for each character of `s`.  The characters of words and
those that refer to variables stand for themselves.  Of the others some are written as something
that is no part of a word, and those that are `escaped` as a backslash with letters or digits behind
it.  So words and variables are found in the scalar where they are in the string, except that an
escape runs into a word right behind it.
-/

namespace Pipework.Yaml

open Text

/-! ## Characters of words -/

lemma isWordChar_of_isWord {c : Char} (h : isWord c = true) : isWordChar c = true := by
  have hlow : c.toNat < 128 := Nat.lt_of_le_of_lt (toNat_of_isWord h).2.1 (by decide)
  rw [isWordChar, if_pos hlow]
  exact h

/-- No table entry reaches a character that is not printable, or a break. -/
lemma printable_wordRanges : ∀ range ∈ wordRanges.toList,
    (0x20 ≤ range.1 ∧ range.2 ≤ 0x7E) ∨ (0xA0 ≤ range.1 ∧ range.2 < 0x2028) ∨
      (0x2029 < range.1 ∧ range.2 ≤ 0xD7FF) ∨ (0xE000 ≤ range.1 ∧ range.2 < 0xFEFF) ∨
      (0xFEFF < range.1 ∧ range.2 ≤ 0xFFFD) ∨ 0x10000 ≤ range.1 := by
  decide +kernel

lemma isPrintable_of_isWordChar {c : Char} (h : isWordChar c = true) :
    isPrintable c = true ∧ isBreak c = false := by
  unfold isWordChar at h
  split at h
  · have htame := isTame_of_isWord h
    simp only [isTame, Bool.and_eq_true, Bool.not_eq_true'] at htame
    exact htame.1.1
  · rename_i hlow
    rw [inRanges, Array.any_eq_true'] at h
    obtain ⟨range, hmem, hrange⟩ := h
    have htable := printable_wordRanges range (Array.mem_toList_iff.2 hmem)
    simp only [Bool.and_eq_true, decide_eq_true_eq] at hrange
    have hfeed : c ≠ '\n' := fun heq => hlow (heq ▸ by decide)
    have hreturn : c ≠ '\r' := fun heq => hlow (heq ▸ by decide)
    simp only [isPrintable, isBreak, Bool.and_eq_true, Bool.or_eq_true, decide_eq_true_eq,
      Bool.or_eq_false_iff, beq_eq_false_iff_ne, beq_iff_eq, bne_iff_ne]
    refine ⟨?_, ⟨⟨⟨hfeed, hreturn⟩, ?_⟩, ?_⟩, ?_⟩
    all_goals omega

lemma isWordChar_eq_false_of_isBreak {c : Char} (h : isBreak c = true) : isWordChar c = false := by
  by_contra hword
  rw [Bool.not_eq_false] at hword
  rw [(isPrintable_of_isWordChar hword).2] at h
  cases h

/-- The characters that stand for themselves in every form of a scalar: those of words, and those
around the name of a variable. -/
def isKept (c : Char) : Bool :=
  isWordChar c || c == '$' || c == '\x7b' || c == '\x7d'

lemma isWordChar_eq_false_of_isKept {c : Char} (h : isKept c = false) : isWordChar c = false := by
  simp only [isKept, Bool.or_eq_false_iff] at h
  exact h.1.1.1

lemma isPrintable_of_isKept {c : Char} (h : isKept c = true) :
    isPrintable c = true ∧ isBreak c = false := by
  simp only [isKept, Bool.or_eq_true, beq_iff_eq] at h
  rcases h with ((hword | rfl) | rfl) | rfl
  · exact isPrintable_of_isWordChar hword
  · decide
  · decide
  · decide

/-! ## Spelling -/

/-- The character that is written as a backslash and the letter `e`. -/
def escapeCharacter : Char := '\x1b'

/-- What may be written for a character. -/
inductive Spelled (escaped : Char → Bool) (c : Char) : List Char → Prop where
  | self (hc : escaped c = false) : Spelled escaped c [c]
  | apart {piece : List Char} (hc : escaped c = false) (hkept : isKept c = false)
    (hne : piece ≠ []) (hpiece : ∀ d ∈ piece, isWordChar d = false) : Spelled escaped c piece
  | escape {name : List Char} (hc : escaped c = true) (hkept : isKept c = false) (hne : name ≠ [])
    (hname : ∀ d ∈ name, isWordChar d = true) (he : 'e' ∈ name → name = ['e'])
    (hc' : 'e' ∈ name ↔ c = escapeCharacter) : Spelled escaped c ('\\' :: name)

/-- A backslash with one letter or digit behind it. -/
lemma Spelled.letter {escaped : Char → Bool} {c letter : Char} (hc : escaped c = true)
    (hkept : isKept c = false) (hletter : isWordChar letter = true)
    (hesc : letter = 'e' ↔ c = escapeCharacter) : Spelled escaped c ['\\', letter] := by
  have hmem : 'e' ∈ [letter] ↔ letter = 'e' := List.mem_singleton.trans eq_comm
  refine .escape hc hkept (List.cons_ne_nil _ _) (List.forall_mem_singleton.2 hletter)
    (fun he => ?_) (hmem.trans hesc)
  rw [hmem.1 he]

/-- A text that is put together from what is written for the characters of a string. -/
inductive Spells (escaped : Char → Bool) : List Char → List Char → Prop where
  | nil : Spells escaped [] []
  | cons {c : Char} {piece s t : List Char} (hc : Spelled escaped c piece)
    (hs : Spells escaped s t) : Spells escaped (c :: s) (piece ++ t)

namespace Spells

variable {escaped : Char → Bool} {s s' t : List Char}

lemma flatMap {f : Char → List Char} (h : ∀ c ∈ s, Spelled escaped c (f c)) :
    Spells escaped s (s.flatMap f) := by
  induction s with
  | nil => exact .nil
  | cons c s ih =>
    rw [List.flatMap_cons]
    exact .cons (h c List.mem_cons_self) (ih fun d hd => h d (List.mem_cons_of_mem _ hd))

lemma refl (h : ∀ c ∈ s, escaped c = false) : Spells escaped s s := by
  have hself := flatMap fun c hc => Spelled.self (h c hc)
  rwa [List.flatMap_singleton'] at hself

lemma exists_append (h : Spells escaped (s ++ s') t) :
    ∃ u u', t = u ++ u' ∧ Spells escaped s u ∧ Spells escaped s' u' := by
  induction s generalizing t with
  | nil => exact ⟨[], t, rfl, .nil, h⟩
  | cons c s ih =>
    cases h with
    | @cons _ piece _ t hc hs =>
      obtain ⟨u, u', rfl, hu, hu'⟩ := ih hs
      exact ⟨piece ++ u, u', (List.append_assoc _ _ _).symm, .cons hc hu, hu'⟩

lemma eq_of_isKept (h : Spells escaped s t) (hs : ∀ c ∈ s, isKept c = true) : t = s := by
  induction h with
  | nil => rfl
  | @cons c piece s t hc _ ih =>
    obtain ⟨hkept, hrest⟩ := List.forall_mem_cons.1 hs
    cases hc with
    | self _ => rw [ih hrest, List.singleton_append]
    | apart _ hnot => rw [hkept] at hnot; cases hnot
    | escape _ hnot => rw [hkept] at hnot; cases hnot

/-- What is written begins as the string does, or with a character that is no part of a word. -/
lemma head (h : Spells escaped s t) : ∀ d ∈ t.head?, d ∈ s.head? ∨ isWordChar d = false := by
  cases h with
  | nil => simp
  | @cons c piece s t hc _ =>
    intro d hd
    cases hc with
    | self _ => exact .inl hd
    | apart _ _ hne hpiece =>
      obtain ⟨e, rest, rfl⟩ := List.exists_cons_of_ne_nil hne
      obtain rfl := Option.some.inj hd
      exact .inr (hpiece e List.mem_cons_self)
    | escape _ _ _ _ _ =>
      obtain rfl := Option.some.inj hd
      exact .inr (by decide)

end Spells

/-! ## Scalars -/

/-- Whether a character of a string is written as an escape that ends with a letter or a digit. -/
def standsEscaped (s : List Char) (c : Char) : Bool :=
  if s.any (fun c => c == '\n' || c == '\r') then c == '\n' || c == '\t' || c == '\r'
  else form s == .double && (!isPrintable c || isBreak c)

lemma spelled_escapeChar (c : Char) :
    Spelled (fun c => c == '\n' || c == '\t' || c == '\r') c (escapeChar c) := by
  unfold escapeChar
  split
  case h_1 => exact .apart (by decide) (by decide) (by decide) (by simp [isWordChar])
  case h_2 => exact .apart (by decide) (by decide) (by decide) (by simp [isWordChar])
  case h_3 => exact .letter (by decide) (by decide) (by decide) (by decide)
  case h_4 => exact .letter (by decide) (by decide) (by decide) (by decide)
  case h_5 => exact .letter (by decide) (by decide) (by decide) (by decide)
  case h_6 hfeed htab hreturn => exact .self (by simp_all)

lemma toUpper_digitChar_isWordChar : ∀ n < 16, isWordChar (Nat.digitChar n).toUpper = true ∧
    (Nat.digitChar n).toUpper ≠ 'e' := by decide

/-- The digits of an escape in hexadecimal are in upper case. -/
lemma isWordChar_hex {width n : Nat} : ∀ d ∈ hex width n, isWordChar d = true ∧ d ≠ 'e' := by
  intro d hd
  rw [hex, List.mem_append] at hd
  rcases hd with hd | hd
  · rw [List.eq_of_mem_replicate hd]
    decide
  · obtain ⟨digit, hdigit, rfl⟩ := List.mem_map.1 hd
    obtain ⟨k, hk, rfl⟩ := mem_toDigits hdigit
    exact toUpper_digitChar_isWordChar k hk

/-- A name of hexadecimal digits is none that ends a word. -/
lemma spelled_hex {escaped : Char → Bool} {c : Char} (hc : escaped c = true)
    (hkept : isKept c = false) (hesc : c ≠ escapeCharacter) {mark : Char}
    (hmark : isWordChar mark = true) (he : mark ≠ 'e') (width n : Nat) :
    Spelled escaped c ('\\' :: mark :: hex width n) := by
  have hnot : 'e' ∉ mark :: hex width n := by
    rw [List.mem_cons, not_or]
    exact ⟨Ne.symm he, fun hmem => (isWordChar_hex _ hmem).2 rfl⟩
  refine .escape hc hkept (List.cons_ne_nil _ _) ?_ (fun hmem => absurd hmem hnot)
    ⟨fun hmem => absurd hmem hnot, fun heq => absurd heq hesc⟩
  exact List.forall_mem_cons.2 ⟨hmark, fun d hd => (isWordChar_hex d hd).1⟩

lemma spelled_escape {c : Char} (h : (!isPrintable c || isBreak c) = true) :
    Spelled (fun c => !isPrintable c || isBreak c) c (escape c) := by
  have hkept : isKept c = false := by
    by_contra hkept
    obtain ⟨hprint, hbreak⟩ := isPrintable_of_isKept (Bool.not_eq_false _ ▸ hkept)
    simp [hprint, hbreak] at h
  have hesc : c = escapeCharacter ↔ c.toNat = 0x1B := by
    rw [← Char.toNat_inj]
    rfl
  unfold escape
  split
  case h_10 heq =>
    obtain rfl : c = '"' := Char.toNat_inj.1 heq
    exact absurd h (by decide)
  case h_11 heq =>
    obtain rfl : c = '\\' := Char.toNat_inj.1 heq
    exact absurd h (by decide)
  case h_16 hother _ _ _ _ _ _ =>
    have hne : c ≠ escapeCharacter := fun heq => hother (hesc.1 heq)
    split
    · exact spelled_hex h hkept hne (by decide) (by decide) _ _
    · split
      · exact spelled_hex h hkept hne (by decide) (by decide) _ _
      · exact spelled_hex h hkept hne (by decide) (by decide) _ _
  all_goals
    rename_i heq
    exact .letter h hkept (by decide) (by rw [hesc, heq]; decide)

lemma spelled_doubleChar (c : Char) :
    Spelled (fun c => !isPrintable c || isBreak c) c (doubleChar c) := by
  unfold doubleChar
  by_cases h : (!isPrintable c || isBreak c) = true
  · rw [h, Bool.true_or, Bool.true_or, if_pos rfl]
    exact spelled_escape h
  · rw [Bool.not_eq_true] at h
    rw [h, Bool.false_or]
    split
    case isTrue hmark =>
      rw [Bool.or_eq_true, beq_iff_eq, beq_iff_eq] at hmark
      rcases hmark with rfl | rfl
      · exact .apart h (by decide) (by decide) (by simp [escape, isWordChar])
      · exact .apart h (by decide) (by decide) (by simp [escape, isWordChar])
    case isFalse => exact .self h

lemma spelled_doubleSingleQuote (c : Char) :
    Spelled (fun _ => false) c (doubleSingleQuote c) := by
  unfold doubleSingleQuote
  split
  · exact .apart rfl (by decide) (by decide) (by simp [isWordChar])
  · exact .self rfl

/-- Between single quotes only the spaces behind a break are new. -/
lemma exists_spells_singleBody (s : List Char) (indent : Nat) (atBreak : Bool) :
    ∃ pad t, (∀ d ∈ pad, d = ' ') ∧ (atBreak = false → pad = []) ∧
      Spells (fun _ => false) s t ∧ singleBody indent atBreak s = pad ++ t := by
  induction s generalizing atBreak with
  | nil =>
    cases atBreak with
    | true =>
      exact ⟨List.replicate indent ' ', [], fun d hd => List.eq_of_mem_replicate hd, by simp, .nil,
        by simp [singleBody]⟩
    | false => exact ⟨[], [], by simp, by simp, .nil, rfl⟩
  | cons c s ih =>
    by_cases hbreak : isBreak c = true
    · obtain ⟨pad, t, hpad, -, ht, hbody⟩ := ih true
      have hkept : isKept c = false := by
        by_contra hkept
        rw [(isPrintable_of_isKept (Bool.not_eq_false _ ▸ hkept)).2] at hbreak
        cases hbreak
      have hpiece : Spelled (fun _ => false) c (c :: pad) := by
        refine .apart rfl hkept (List.cons_ne_nil _ _) (List.forall_mem_cons.2 ⟨?_, ?_⟩)
        · exact isWordChar_eq_false_of_isBreak hbreak
        · intro d hd
          rw [hpad d hd]
          decide
      refine ⟨[], (c :: pad) ++ t, by simp, by simp, .cons hpiece ht, ?_⟩
      rw [singleBody, if_pos hbreak, hbody, List.nil_append, List.cons_append]
    · obtain ⟨pad, t, -, hnone, ht, hbody⟩ := ih false
      refine ⟨if atBreak then List.replicate indent ' ' else [], doubleSingleQuote c ++ t, ?_, ?_,
        .cons (spelled_doubleSingleQuote c) ht, ?_⟩
      · cases atBreak with
        | true => exact fun d hd => List.eq_of_mem_replicate hd
        | false => simp
      · rintro rfl
        rfl
      · rw [singleBody, if_neg hbreak, hbody, hnone rfl, List.nil_append, List.append_assoc]

lemma mem_newline_of_form {s : List Char} (h : form s = .literal) : '\n' ∈ s := by
  unfold form at h
  split at h
  case isTrue hfeed => exact List.contains_iff_mem.1 hfeed
  case isFalse =>
    split at h
    · cases h
    · split at h <;> cases h

/-- A scalar spells its string, perhaps between quotes. -/
theorem exists_spells_scalar (s : List Char) :
    ∃ quote t, (quote = [] ∧ t = s ∨ quote = ['\''] ∨ quote = ['"']) ∧
      Spells (standsEscaped s) s t ∧ scalar s = quote ++ t ++ quote := by
  unfold scalar
  split
  case isTrue hbreak =>
    have hescaped : standsEscaped s = fun c => c == '\n' || c == '\t' || c == '\r' := by
      funext c
      rw [standsEscaped, if_pos hbreak]
    refine ⟨['"'], s.flatMap escapeChar, .inr (.inr rfl), ?_, rfl⟩
    rw [hescaped]
    exact .flatMap fun c _ => spelled_escapeChar c
  case isFalse hbreak =>
    have hescaped : standsEscaped s =
        fun c => form s == .double && (!isPrintable c || isBreak c) := by
      funext c
      rw [standsEscaped, if_neg hbreak]
    rw [hescaped]
    unfold writeInline
    split
    case h_1 hform =>
      rw [hform]
      exact ⟨[], s, .inl ⟨rfl, rfl⟩, .refl fun c _ => rfl, by simp⟩
    case h_2 hform =>
      obtain ⟨pad, t, -, hnone, ht, hbody⟩ := exists_spells_singleBody s topIndent false
      rw [hform]
      refine ⟨['\''], t, .inr (.inl rfl), ht, ?_⟩
      rw [writeSingle, hbody, hnone rfl]
      rfl
    case h_3 hform =>
      rw [hform]
      refine ⟨['"'], s.flatMap doubleChar, .inr (.inr rfl), ?_, rfl⟩
      exact .flatMap fun c _ => spelled_doubleChar c
    case h_4 hform =>
      have hfeed : '\n' ∈ s := mem_newline_of_form hform
      exact absurd (List.any_eq_true.2 ⟨'\n', hfeed, rfl⟩) hbreak

end Pipework.Yaml
