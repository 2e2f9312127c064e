import Pipework.Proofs.Decimal.Digits
import Pipework.Proofs.Yaml.Plain

/-!
# Plain scalars of known form

Texts that are written without quotes whatever they are: references that begin with a dollar sign,
numbers, numbers with a unit, and names.  `Plain.of_tame` shows that they can stand plain, and the
lemmas on `resolve` what a reader takes them for.
-/

namespace Pipework.Yaml

open Pipework.Decimal

/-! ## Tame texts -/

/-- The characters that are no indicators wherever they stand behind the first one. -/
def isTame (c : Char) : Bool := isPrintable c && !isBreak c && c != '#' && c != ':'

/-- The characters that begin no plain scalar, or not every one. -/
def openers : List Char :=
  ['#', ',', '[', ']', '\x7b', '\x7d', '&', '*', '!', '|', '>', '\'', '"', '%', '@', '\x60', '?',
    ':', '-', '.', ' ']

lemma hasInnerIndicator_of_tame {s : List Char} (h : ∀ c ∈ s, isTame c = true)
    (before : Option Char) : hasInnerIndicator before s = false := by
  induction s generalizing before with
  | nil => rfl
  | cons c rest ih =>
    have hc := h c List.mem_cons_self
    simp only [isTame, Bool.and_eq_true, bne_iff_ne] at hc
    rw [hasInnerIndicator, ih (fun d hd => h d (List.mem_cons_of_mem _ hd))]
    simp [hc.1.2, hc.2]

lemma hasPair_of_forall_not {first second : Char → Bool} {s : List Char}
    (h : ∀ c ∈ s, second c = false) : hasPair first second s = false := by
  induction s with
  | nil => rfl
  | cons a rest ih =>
    cases rest with
    | nil => rfl
    | cons b rest =>
      have hb := h b (by simp)
      rw [hasPair, hb, ih fun c hc => h c (List.mem_cons_of_mem _ hc), Bool.and_false,
        Bool.or_false]

/-- A text of tame characters can stand plain unless it begins with an indicator or ends with
a space. -/
theorem Plain.of_tame {c : Char} {s : List Char} (hc : c ∉ openers)
    (h : ∀ d ∈ c :: s, isTame d = true) (hlast : (c :: s).getLast? ≠ some ' ') :
    Plain (c :: s) := by
  simp only [openers, List.mem_cons, List.not_mem_nil, or_false, not_or] at hc
  have htame : ∀ d ∈ c :: s, isPrintable d = true ∧ isBreak d = false := by
    intro d hd
    have hd' := h d hd
    simp only [isTame, Bool.and_eq_true, Bool.not_eq_true'] at hd'
    exact hd'.1.1
  have hbreaks : (c :: s).any isBreak = false :=
    List.any_eq_false.2 fun d hd => by simp [(htame d hd).2]
  have hprints : (c :: s).any (!isPrintable ·) = false :=
    List.any_eq_false.2 fun d hd => by simp [(htame d hd).1]
  have hpair : hasPair (· == ' ') isBreak (c :: s) = false :=
    hasPair_of_forall_not fun d hd => (htame d hd).2
  have hinner : hasInnerIndicator (some c) s = false :=
    hasInnerIndicator_of_tame (fun d hd => h d (List.mem_cons_of_mem _ hd)) _
  have hlead : hasLeadingIndicator (c :: s) = false := by simp [hasLeadingIndicator, hc]
  refine ⟨List.cons_ne_nil _ _, ?_⟩
  simp [plainAllowed, hbreaks, needsEscapes, hprints, hpair, hasIndicator, hinner, hlead, hc, hlast]

/-- The characters of names and numbers. -/
def isWord (c : Char) : Bool := c.isAlphanum || c == '_'

lemma isUpper_iff {c : Char} : c.isUpper = true ↔ 'A'.toNat ≤ c.toNat ∧ c.toNat ≤ 'Z'.toNat :=
  decide_eq_true_iff

lemma isLower_iff {c : Char} :
    c.isLower = true ↔ 'a'.toNat ≤ c.toNat ∧ c.toNat ≤ 'z'.toNat := by
  show (decide (_ ≤ _) && decide (_ ≤ _)) = true ↔ _
  rw [Bool.and_eq_true, decide_eq_true_iff, decide_eq_true_iff]
  exact Iff.rfl

lemma isAlpha_iff {c : Char} : c.isAlpha = true ↔ c.isUpper = true ∨ c.isLower = true := by
  show (_ || _) = true ↔ _
  rw [Bool.or_eq_true]

lemma toNat_of_isWord {c : Char} (h : isWord c = true) :
    0x30 ≤ c.toNat ∧ c.toNat ≤ 0x7A ∧ c ≠ ':' := by
  have hcolon : c ≠ ':' := by
    rintro rfl
    exact absurd h (by decide)
  simp only [isWord, Char.isAlphanum, Bool.or_eq_true, isAlpha_iff, isUpper_iff, isLower_iff,
    isDigit_iff, beq_iff_eq] at h
  rcases h with ((⟨hlow, hhigh⟩ | ⟨hlow, hhigh⟩) | ⟨hlow, hhigh⟩) | rfl
  · exact ⟨Nat.le_trans (by decide) hlow, Nat.le_trans hhigh (by decide), hcolon⟩
  · exact ⟨Nat.le_trans (by decide) hlow, Nat.le_trans hhigh (by decide), hcolon⟩
  · exact ⟨hlow, Nat.le_trans hhigh (by decide), hcolon⟩
  · exact ⟨by decide, by decide, hcolon⟩

lemma isTame_of_isWord {c : Char} (h : isWord c = true) : isTame c = true := by
  obtain ⟨hlow, hhigh, hcolon⟩ := toNat_of_isWord h
  have hhash : c ≠ '#' := fun heq => absurd (heq ▸ hlow) (by decide)
  simp only [isTame, isPrintable, isBreak, Bool.and_eq_true, Bool.or_eq_true, decide_eq_true_eq,
    Bool.not_eq_true', Bool.or_eq_false_iff, beq_eq_false_iff_ne, beq_iff_eq, bne_iff_ne]
  refine ⟨⟨⟨.inl (.inl (.inl (.inr (by omega)))), ?_⟩, hhash⟩, hcolon⟩
  have hfeed : c ≠ '\n' := fun heq => absurd (heq ▸ hlow) (by decide)
  have hreturn : c ≠ '\r' := fun heq => absurd (heq ▸ hlow) (by decide)
  exact ⟨⟨⟨⟨hfeed, hreturn⟩, by omega⟩, by omega⟩, by omega⟩

lemma getLast?_ne_space {s : List Char} (h : ∀ c ∈ s, c ≠ ' ') : s.getLast? ≠ some ' ' :=
  fun hlast => h ' ' (List.mem_of_getLast? hlast) rfl

lemma ne_space_of_isWord {c : Char} (h : isWord c = true) : c ≠ ' ' := by
  rintro rfl
  exact absurd h (by decide)

/-- Names and numbers can stand plain. -/
theorem Plain.of_word {s : List Char} (hne : s ≠ []) (h : ∀ c ∈ s, isWord c = true) : Plain s := by
  obtain ⟨c, s, rfl⟩ := List.exists_cons_of_ne_nil hne
  have hc : c ∉ openers := fun hmem => by
    have hword := h c List.mem_cons_self
    have hopeners : ∀ d ∈ openers, isWord d = false := by simp [openers, isWord]
    simp [hopeners c hmem] at hword
  exact .of_tame hc (fun d hd => isTame_of_isWord (h d hd))
    (getLast?_ne_space fun d hd => ne_space_of_isWord (h d hd))

/-- So can they behind a dollar sign. -/
theorem Plain.of_dollar_word {s : List Char} (h : ∀ c ∈ s, isWord c = true) :
    Plain ('$' :: s) := by
  refine .of_tame (by decide) (List.forall_mem_cons.2 ⟨by decide, fun c hc => ?_⟩)
    (getLast?_ne_space (List.forall_mem_cons.2 ⟨by decide, fun c hc => ?_⟩))
  · exact isTame_of_isWord (h c hc)
  · exact ne_space_of_isWord (h c hc)

/-! ## What they are -/

/-- No spelling of null or of a boolean begins with a digit or a dollar sign. -/
lemma not_isNull_or_bool {c : Char} (hc : c.isDigit = true ∨ c = '$') (s : List Char) :
    isNull (c :: s) = false ∧ bool? (c :: s) = none := by
  have hne : c ∉ ['n', 'N', '~', 't', 'T', 'f', 'F'] := by
    rintro hmem
    simp only [List.mem_cons, List.not_mem_nil, or_false] at hmem
    rcases hmem with rfl | rfl | rfl | rfl | rfl | rfl | rfl <;> revert hc <;> decide
  simp only [List.mem_cons, List.not_mem_nil, or_false, not_or] at hne
  obtain ⟨h1, h2, h3, h4, h5, h6, h7⟩ := hne
  constructor
  · simp [isNull, Ne.symm h1, Ne.symm h2, Ne.symm h3]
  · simp [bool?, Ne.symm h4, Ne.symm h5, Ne.symm h6, Ne.symm h7]

/-- What begins as no number does is a string, if it is no spelling of null or of a boolean. -/
theorem resolve_of_head {c : Char} (hdigit : c.isDigit = false)
    (hsign : c ≠ '+' ∧ c ≠ '-' ∧ c ≠ '.') {s : List Char} (hnull : isNull (c :: s) = false)
    (hbool : bool? (c :: s) = none) : resolve (c :: s) = .text := by
  obtain ⟨hplus, hminus, hdot⟩ := hsign
  have hzero : c ≠ '0' := by
    rintro rfl
    exact absurd hdigit (by decide)
  have hsigned : isSigned (c :: s) = false := by simp [isSigned, hplus, hminus]
  have hunplussed : unplussed (c :: s) = c :: s := by simp [unplussed, hplus]
  have hunsigned : unsigned (c :: s) = c :: s := by simp [unsigned, hplus, hminus]
  have hleading : hasLeadingZero (c :: s) = false := by simp [hasLeadingZero, hunsigned, hzero]
  have hbased : based? (c :: s) = none := by simp [based?, hzero]
  have hdigits : digits? 10 (c :: s) = none := by simp [digits?, digitValue?_of_not_isDigit hdigit]
  have hinteger : integer? (c :: s) = none := by
    simp [integer?, natural?, negative?, hunplussed, hbased, hsigned, hleading, hdigits, hminus]
  have hliteral : literal? (c :: s) = none := by simp [literal?, hdigit, hplus, hminus, hdot]
  have hdecimal : decimal? (c :: s) = none := by
    simp [decimal?, hunplussed, hsigned, hliteral, Ne.symm hdot, Ne.symm hminus]
  simp [resolve, hnull, hbool, hinteger, hdecimal, hleading]

/-- What begins with a dollar sign is a string. -/
lemma resolve_dollar (s : List Char) : resolve ('$' :: s) = .text :=
  resolve_of_head rfl (by decide) (not_isNull_or_bool (.inr rfl) s).1
    (not_isNull_or_bool (.inr rfl) s).2

/-- A name of upper-case letters, digits and underscores that does not begin with a digit is a
string but for three words. -/
theorem resolve_upper {s : List Char} (hne : s ≠ [])
    (hupper : ∀ c ∈ s, c.isUpper ∨ c.isDigit ∨ c = '_') (hhead : ∀ c ∈ s.head?, c.isDigit = false)
    (hwords : s ≠ "NULL".toList ∧ s ≠ "TRUE".toList ∧ s ≠ "FALSE".toList) : resolve s = .text := by
  obtain ⟨hNull, hTrue, hFalse⟩ := hwords
  have hother {word : List Char} {c : Char} (hc : c ∈ word)
      (hnot : ¬(c.isUpper ∨ c.isDigit ∨ c = '_')) : word ≠ s := by
    rintro rfl
    exact hnot (hupper c hc)
  have hnull : isNull s = false := by
    simp only [isNull, List.any_cons, List.any_nil, Bool.or_false, Bool.or_eq_false_iff,
      beq_eq_false_iff_ne]
    exact ⟨hother (c := 'u') (by decide) (by decide), hother (c := 'u') (by decide) (by decide),
      Ne.symm hNull, hother (c := '~') (by decide) (by decide)⟩
  have htrue : (["true", "True", "TRUE"].any (·.toList == s)) = false := by
    simp only [List.any_cons, List.any_nil, Bool.or_false, Bool.or_eq_false_iff,
      beq_eq_false_iff_ne]
    exact ⟨hother (c := 'u') (by decide) (by decide), hother (c := 'u') (by decide) (by decide),
      Ne.symm hTrue⟩
  have hfalse : (["false", "False", "FALSE"].any (·.toList == s)) = false := by
    simp only [List.any_cons, List.any_nil, Bool.or_false, Bool.or_eq_false_iff,
      beq_eq_false_iff_ne]
    exact ⟨hother (c := 'l') (by decide) (by decide), hother (c := 'l') (by decide) (by decide),
      Ne.symm hFalse⟩
  have hbool : bool? s = none := by simp only [bool?, htrue, hfalse, Bool.false_eq_true, if_false]
  obtain ⟨c, s, rfl⟩ := List.exists_cons_of_ne_nil hne
  have hc := hupper c List.mem_cons_self
  refine resolve_of_head (hhead c rfl) ⟨?_, ?_, ?_⟩ hnull hbool
  all_goals
    rintro rfl
    exact absurd hc (by decide)

/-! ## Numbers -/

lemma toList_toString (n : Nat) : (toString n).toList = Nat.toDigits 10 n := String.toList_ofList

/-- A number stands plain, and so does one with a unit. -/
lemma plain_toDigits_append (n : Nat) {s : List Char} (hs : ∀ c ∈ s, isWord c = true) :
    Plain (Nat.toDigits 10 n ++ s) := by
  refine .of_word (by simp [Nat.toDigits_ne_nil]) fun c hc => ?_
  rcases List.mem_append.1 hc with hdigit | hunit
  · simp [isWord, Char.isAlphanum, isDigit_toDigits hdigit]
  · exact hs c hunit

lemma isSigned_of_isDigit {c : Char} (hc : c.isDigit = true) (s : List Char) :
    isSigned (c :: s) = false ∧ unsigned (c :: s) = c :: s ∧ unplussed (c :: s) = c :: s := by
  have hplus : c ≠ '+' := fun h => absurd (h ▸ hc) (by decide)
  have hminus : c ≠ '-' := fun h => absurd (h ▸ hc) (by decide)
  refine ⟨?_, ?_, ?_⟩
  · simp [isSigned, hplus, hminus]
  · simp [unsigned, hplus, hminus]
  · simp [unplussed, hplus]

/-- Behind the digits of a number there is no mark of another base, and no further digit if the
number is zero. -/
lemma based?_toDigits_append (n : Nat) {s : List Char}
    (hs : ∀ c ∈ s.head?, c.isDigit = false ∧ c ≠ 'x' ∧ c ≠ 'o' ∧ c ≠ 'b') :
    based? (Nat.toDigits 10 n ++ s) = none ∧ hasLeadingZero (Nat.toDigits 10 n ++ s) = false := by
  rcases Nat.eq_zero_or_pos n with rfl | hn
  · rw [Nat.toDigits_zero]
    cases s with
    | nil => exact ⟨rfl, rfl⟩
    | cons c s =>
      obtain ⟨hdigit, hx, ho, hb⟩ := hs c rfl
      constructor
      · simp [based?, hx, ho, hb]
      · simp [hasLeadingZero, unsigned, hdigit]
  · obtain ⟨d, ds, heq, hd⟩ := exists_toDigits_eq_cons hn
    have hdigit : d.isDigit = true := isDigit_toDigits (n := n) (by simp [heq])
    rw [heq, List.cons_append]
    constructor
    · simp [based?, hd]
    · rw [hasLeadingZero, (isSigned_of_isDigit hdigit _).2.1]
      simp [hd]

/-- The digits of a number of 64 bits are that number. -/
theorem resolve_toDigits {n : Nat} (hn : n < UInt64.size) :
    resolve (Nat.toDigits 10 n) = .natural n := by
  obtain ⟨hbased, hzero⟩ := based?_toDigits_append n (s := []) (by simp)
  rw [List.append_nil] at hbased hzero
  have hdigits := digits?_toDigits n
  obtain ⟨d, ds, heq⟩ := List.exists_cons_of_ne_nil (Nat.toDigits_ne_nil (n := n) (b := 10))
  have hdigit : d.isDigit = true := isDigit_toDigits (n := n) (by simp [heq])
  rw [heq] at hbased hzero hdigits ⊢
  obtain ⟨hnull, hbool⟩ := not_isNull_or_bool (.inl hdigit) ds
  obtain ⟨hsigned, -, hplus⟩ := isSigned_of_isDigit hdigit ds
  have hnatural : natural? (d :: ds) = some n := by
    simp [natural?, hplus, hbased, hsigned, hzero, hdigits]
  simp [resolve, hnull, hbool, integer?, hnatural, hn]

/-- A number with a unit behind it is a string. -/
theorem resolve_toDigits_append (n : Nat) : resolve (Nat.toDigits 10 n ++ ['m']) = .text := by
  obtain ⟨hbased, hzero⟩ := based?_toDigits_append n (s := ['m']) (by simp)
  have hall : ∀ c ∈ Nat.toDigits 10 n, c.isDigit = true := fun c hc => isDigit_toDigits hc
  have hdigits : digits? 10 (Nat.toDigits 10 n ++ ['m']) = none := by
    have hunit : digitValue? 10 'm' = none := rfl
    simp [digits?, List.foldlM_append, foldlM_digitValue? hall, hunit]
  have htake : (Nat.toDigits 10 n ++ ['m']).takeWhile Char.isDigit = Nat.toDigits 10 n := by
    rw [List.takeWhile_append_of_pos hall]
    exact List.append_nil _
  have hdrop : (Nat.toDigits 10 n ++ ['m']).dropWhile Char.isDigit = ['m'] := by
    rw [List.dropWhile_append_of_pos hall]
    rfl
  obtain ⟨d, ds, heq⟩ := List.exists_cons_of_ne_nil (Nat.toDigits_ne_nil (n := n) (b := 10))
  have hdigit : d.isDigit = true := isDigit_toDigits (n := n) (by simp [heq])
  rw [heq, List.cons_append] at hbased hzero hdigits htake hdrop ⊢
  obtain ⟨hnull, hbool⟩ := not_isNull_or_bool (.inl hdigit) (ds ++ ['m'])
  obtain ⟨hsigned, -, hplus⟩ := isSigned_of_isDigit hdigit (ds ++ ['m'])
  have hminus : d ≠ '-' := fun h => absurd (h ▸ hdigit) (by decide)
  have hinteger : integer? (d :: (ds ++ ['m'])) = none := by
    simp [integer?, natural?, hplus, hbased, hsigned, hzero, hdigits, negative?, hminus]
  have hdecimal : decimal? (d :: (ds ++ ['m'])) = none := by
    have hdot : d ≠ '.' := fun h => absurd (h ▸ hdigit) (by decide)
    have hplain : d ≠ '+' := fun h => absurd (h ▸ hdigit) (by decide)
    have hliteral : literal? (d :: (ds ++ ['m'])) = none := by
      simp [literal?, hminus, hplain, htake, hdrop]
    simp [decimal?, hplus, hsigned, hliteral, Ne.symm hdot, Ne.symm hminus]
  simp [resolve, hnull, hbool, hinteger, hzero, hdecimal]

end Pipework.Yaml
