import Mathlib.Tactic.FinCases
import Mathlib.Tactic.Lemma
import Pipework.Json.Read
import Pipework.Proofs.Decimal.Digits
import Pipework.Proofs.Except

/-!
# Words, strings and numbers read back

The leaves of a JSON text.  Each reader gives back what was written and stops right behind it,
whatever follows: `readWord_append` for the three words, `readString_append` for strings with
all their escapes, and `readNumber_toDigits` for the integers that 64 bits hold.  A number is the
one of the three whose end is not marked by its own text, so it asks of what follows that it cannot
go on the number (`endsNumber`).

Places in the text come out of every reader; nothing here depends on which place it is.
-/

namespace Pipework.Json

/-! ## Words -/

lemma readWord_append (word : List Char) (p : Place) (rest : List Char) :
    ∃ q, readWord word ⟨p, word ++ rest⟩ = .ok ⟨q, rest⟩ := by
  induction word generalizing p with
  | nil => exact ⟨p, rfl⟩
  | cons w word ih =>
    obtain ⟨q, hq⟩ := ih (p.after w)
    exact ⟨q, by simpa [readWord] using hq⟩

/-! ## Strings -/

lemma hexValue?_digitChar : ∀ n < 16, hexValue? (Nat.digitChar n) = some n := by decide

/-- The two digits of a control character's escape say its number. -/
lemma hex4?_control {n : Nat} (hn : n < 0x20) :
    hex4? '0' '0' (Nat.digitChar (n / 16)) (Nat.digitChar (n % 16)) = some n := by
  have hzero : hexValue? '0' = some 0 := by decide
  have hhigh := hexValue?_digitChar (n / 16) (by omega)
  have hlow := hexValue?_digitChar (n % 16) (by omega)
  simp only [hex4?, hzero, hhigh, hlow, Option.bind_eq_bind, Option.bind_some, Option.pure_def,
    Option.some.injEq]
  omega

/-- A piece says one character when it adds that character to whatever follows it. -/
def Piece.Says (piece : Piece) (c : Char) : Prop :=
  ∀ ending parts, joinPieces ending (piece :: parts) = (joinPieces ending parts).map (c :: ·)

lemma says_escaped (c : Char) (cut stop : Place) : Piece.Says ⟨.escaped c, cut, stop⟩ c :=
  fun _ _ => rfl

lemma says_plain (c : Char) (cut stop : Place) : Piece.Says ⟨.plain c, cut, stop⟩ c :=
  fun _ _ => rfl

/-- A control character's number is no half of a surrogate pair. -/
lemma says_code {c : Char} (hc : c.toNat < 0x20) (cut stop : Place) :
    Piece.Says ⟨.code c.toNat, cut, stop⟩ c := by
  intro ending parts
  have hsecond : isSecondHalf c.toNat = false := by simp [isSecondHalf]; omega
  have hfirst : isFirstHalf c.toNat = false := by simp [isFirstHalf]; omega
  rw [joinPieces.eq_def]
  simp [hsecond, hfirst, Char.ofNat_toNat]

section

attribute [local simp] pieces

/-- A backslash with a letter is one piece. -/
lemma pieces_escaped {e c : Char} (hu : e ≠ 'u') (h : unescape? e = some c) (p : Place)
    (tail : List Char) :
    ∃ q, pieces p ('\\' :: e :: tail) =
      (⟨.escaped c, q, q⟩ :: (pieces q tail).1, (pieces q tail).2) := by
  refine ⟨(p.after '\\').after e, ?_⟩
  simp [h]

/-- An escape by number is one piece. -/
lemma pieces_code {c : Char} (hc : c.toNat < 0x20) (p : Place) (tail : List Char) :
    ∃ q, pieces p ('\\' :: 'u' :: '0' :: '0' :: Nat.digitChar (c.toNat / 16) ::
        Nat.digitChar (c.toNat % 16) :: tail) =
      (⟨.code c.toNat, q, q⟩ :: (pieces q tail).1, (pieces q tail).2) := by
  refine ⟨⟨((p.after '\\').after 'u').line, ((p.after '\\').after 'u').column + 4⟩, ?_⟩
  simp [hex4?_control hc]

/-- A character that stands for itself is one piece. -/
lemma pieces_plain {c : Char} (hquote : c ≠ '"') (hback : c ≠ '\\') (hc : ¬c.toNat < 0x20)
    (p : Place) (tail : List Char) :
    ∃ cut q, pieces p (c :: tail) =
      (⟨.plain c, cut, q⟩ :: (pieces q tail).1, (pieces q tail).2) := by
  refine ⟨p.afterByte (c :: tail), p.after c, ?_⟩
  simp [hc]

end

/-- One written character is one piece, and the pieces behind it are read from behind it. -/
lemma pieces_escapeChar (c : Char) (p : Place) (tail : List Char) :
    ∃ piece q, piece.Says c ∧
      pieces p (escapeChar c ++ tail) = (piece :: (pieces q tail).1, (pieces q tail).2) := by
  have hletter : ∀ e c, e ≠ 'u' → unescape? e = some c → escapeChar c = ['\\', e] →
      ∃ piece q, piece.Says c ∧
        pieces p (escapeChar c ++ tail) = (piece :: (pieces q tail).1, (pieces q tail).2) := by
    intro e c hu he hc
    obtain ⟨q, hq⟩ := pieces_escaped hu he p tail
    exact ⟨_, q, says_escaped c q q, by rw [hc]; exact hq⟩
  by_cases h : c ∈ ['"', '\\', '\x08', '\x0c', '\n', '\r', '\t']
  · fin_cases h
    · exact hletter '"' _ (by decide) (by decide) (by decide)
    · exact hletter '\\' _ (by decide) (by decide) (by decide)
    · exact hletter 'b' _ (by decide) (by decide) (by decide)
    · exact hletter 'f' _ (by decide) (by decide) (by decide)
    · exact hletter 'n' _ (by decide) (by decide) (by decide)
    · exact hletter 'r' _ (by decide) (by decide) (by decide)
    · exact hletter 't' _ (by decide) (by decide) (by decide)
  · simp only [List.mem_cons, List.not_mem_nil, or_false, not_or] at h
    obtain ⟨hquote, hback, hb, hf, hn, hr, ht⟩ := h
    by_cases hc : c.toNat < 0x20
    · obtain ⟨q, hq⟩ := pieces_code hc p tail
      refine ⟨_, q, says_code hc q q, ?_⟩
      rw [← hq]
      simp [escapeChar, hc]
    · obtain ⟨cut, q, hq⟩ := pieces_plain hquote hback hc p tail
      refine ⟨_, q, says_plain c cut q, ?_⟩
      rw [← hq]
      simp [escapeChar, hc]

/-- The pieces of a written string say its characters, and end behind its quote. -/
lemma pieces_flatMap_escapeChar (s : List Char) (p : Place) (rest : List Char) :
    ∃ parts q, pieces p (s.flatMap escapeChar ++ '"' :: rest) = (parts, .ok ⟨q, rest⟩) ∧
      ∀ ending, joinPieces ending parts = .ok s := by
  induction s generalizing p with
  | nil => exact ⟨[], p.after '"', by simp [pieces], fun _ => rfl⟩
  | cons c s ih =>
    obtain ⟨piece, next, hpiece, hpieces⟩ :=
      pieces_escapeChar c p (s.flatMap escapeChar ++ '"' :: rest)
    obtain ⟨parts, q, hparts, hjoin⟩ := ih next
    refine ⟨piece :: parts, q, ?_, fun ending => ?_⟩
    · rw [List.flatMap_cons, List.append_assoc, hpieces, hparts]
    · rw [hpiece, hjoin]
      rfl

theorem readString_append (s : String) (p : Place) (rest : List Char) :
    ∃ q, readString ⟨p, s.toList.flatMap escapeChar ++ '"' :: rest⟩ = .ok (s, ⟨q, rest⟩) := by
  obtain ⟨parts, q, hparts, hjoin⟩ := pieces_flatMap_escapeChar s.toList p rest
  refine ⟨q, ?_⟩
  simp [readString, hparts, hjoin]

/-! ## Numbers -/

/-- A text that cannot go on a number. -/
def endsNumber : List Char → Bool
  | [] => true
  | c :: _ => !c.isDigit && c != '.' && c != 'e' && c != 'E'

lemma le_ofDigitChars (ds : List Char) (s : Nat) : s ≤ Nat.ofDigitChars 10 ds s := by
  induction ds generalizing s with
  | nil => simp
  | cons d ds ih =>
    rw [Nat.ofDigitChars_cons]
    exact Nat.le_trans (by omega) (ih _)

/-- All digits of a number of 64 bits are added up. -/
lemma addDigits_eq (ds : List Char) (s count : Nat)
    (h : Nat.ofDigitChars 10 ds s < UInt64.size) :
    addDigits s count ds = (Nat.ofDigitChars 10 ds s, count + ds.length) := by
  induction ds generalizing s count with
  | nil => simp [addDigits]
  | cons d ds ih =>
    rw [Nat.ofDigitChars_cons] at h ⊢
    have hnext : s * 10 + (d.toNat - '0'.toNat) = 10 * s + (d.toNat - '0'.toNat) := by omega
    have hlt := Nat.lt_of_le_of_lt (le_ofDigitChars ds _) h
    rw [addDigits, hnext, if_pos hlt, ih _ _ h, List.length_cons]
    exact congrArg _ (by omega)

lemma takeWhile_isDigit {ds rest : List Char} (hds : ∀ c ∈ ds, c.isDigit = true)
    (hrest : endsNumber rest = true) :
    (ds ++ rest).takeWhile Char.isDigit = ds ∧ (ds ++ rest).dropWhile Char.isDigit = rest := by
  rw [List.takeWhile_append_of_pos hds, List.dropWhile_append_of_pos hds]
  cases rest with
  | nil => simp
  | cons c rest =>
    have hc : c.isDigit = false := by
      simp only [endsNumber, Bool.and_eq_true, Bool.not_eq_true'] at hrest
      exact hrest.1.1.1
    simp [hc]

/-- The digits of a number are its whole part. -/
lemma readWhole_toDigits (n : Nat) (p : Place) {rest : List Char}
    (hrest : endsNumber rest = true) :
    ∃ q, readWhole false ⟨p, Nat.toDigits 10 n ++ rest⟩ = .ok (Nat.toDigits 10 n, ⟨q, rest⟩) := by
  have hdigits : ∀ c ∈ Nat.toDigits 10 n, c.isDigit = true := fun c hc =>
    Decimal.isDigit_toDigits hc
  obtain ⟨htake, hdrop⟩ := takeWhile_isDigit hdigits hrest
  rcases Nat.eq_zero_or_pos n with rfl | hn
  · have hhead : rest.head?.any Char.isDigit = false := by
      cases rest with
      | nil => rfl
      | cons c rest =>
        simp only [endsNumber, Bool.and_eq_true, Bool.not_eq_true'] at hrest
        simp [hrest.1.1.1]
    rw [Nat.toDigits_zero]
    exact ⟨p.after '0', by simp [readWhole, hhead]⟩
  · obtain ⟨d, ds, heq, hd⟩ := Decimal.exists_toDigits_eq_cons hn
    have hdigit : d.isDigit = true := Decimal.isDigit_toDigits (n := n) (by simp [heq])
    rw [heq] at htake hdrop ⊢
    refine ⟨⟨p.line, p.column + (d :: ds).length⟩, ?_⟩
    rw [List.cons_append] at htake hdrop ⊢
    simp [readWhole, hdigit, htake, Cursor.skipRun, hdrop]

lemma readFraction_none (p : Place) {rest : List Char} (hrest : endsNumber rest = true) :
    readFraction false ⟨p, rest⟩ = .ok (none, ⟨p, rest⟩) := by
  cases rest with
  | nil => rfl
  | cons c rest =>
    simp only [endsNumber, Bool.and_eq_true, Bool.not_eq_true', bne_iff_ne] at hrest
    simp [readFraction, hrest.1.1.2]

lemma readExponent_none (p : Place) {rest : List Char} (hrest : endsNumber rest = true) :
    readExponent false ⟨p, rest⟩ = .ok (none, ⟨p, rest⟩) := by
  cases rest with
  | nil => rfl
  | cons c rest =>
    simp only [endsNumber, Bool.and_eq_true, Bool.not_eq_true', bne_iff_ne] at hrest
    obtain ⟨⟨_, he⟩, hE⟩ := hrest
    simp [readExponent, he, hE]

/-- A written number of at most 64 bits is read as that number. -/
theorem readNumber_toDigits {n : Nat} (hn : n < UInt64.size) (p : Place) {rest : List Char}
    (hrest : endsNumber rest = true) :
    ∃ q, readNumber ⟨p, Nat.toDigits 10 n ++ rest⟩ = .ok (.natural n, ⟨q, rest⟩) := by
  obtain ⟨q, hwhole⟩ := readWhole_toDigits n p hrest
  have hdigits : addDigits 0 0 (Nat.toDigits 10 n) = (n, (Nat.toDigits 10 n).length) := by
    rw [addDigits_eq _ _ _ (by simpa using hn)]
    simp
  have hnumeral : readNumeral false ⟨p, Nat.toDigits 10 n ++ rest⟩ =
      .ok (⟨false, Nat.toDigits 10 n, none, none⟩, ⟨q, rest⟩) := by
    obtain ⟨d, ds, heq⟩ := List.exists_cons_of_ne_nil (Nat.toDigits_ne_nil (n := n) (b := 10))
    have hsign : d ≠ '-' := by
      rintro rfl
      have hdigit := Decimal.isDigit_toDigits (n := n) (c := '-') (by simp [heq])
      exact absurd hdigit (by decide)
    rw [heq, List.cons_append] at hwhole ⊢
    simp [readNumeral, hsign, hwhole, readFraction_none q hrest, readExponent_none q hrest]
  refine ⟨q, ?_⟩
  simp [readNumber, hnumeral, Numeral.value, Numeral.isInteger, hdigits]

end Pipework.Json
