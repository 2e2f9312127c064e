import Mathlib.Tactic.Lemma
import Pipework.Decimal.Literal

/-!
# The digits of a natural number

The text of a natural number is a run of decimal digits (`isDigit_toDigits`) that does not begin
with a zero unless the number is zero (`exists_toDigits_eq_cons`), and reading the digits gives back
the number (`digits?_toDigits`).
-/

namespace Pipework.Decimal

lemma isDigit_toDigits {n : Nat} {c : Char} (h : c ∈ Nat.toDigits 10 n) : c.isDigit = true :=
  Nat.isDigit_of_mem_toDigits (by omega) (by omega) h

lemma digitChar_ne_zero : ∀ n < 10, n ≠ 0 → Nat.digitChar n ≠ '0' := by decide

/-- A positive number does not begin with a zero. -/
lemma exists_toDigits_eq_cons {n : Nat} (hn : 0 < n) :
    ∃ d ds, Nat.toDigits 10 n = d :: ds ∧ d ≠ '0' := by
  induction n using Nat.strongRecOn with
  | ind n ih =>
    by_cases hlt : n < 10
    · exact ⟨_, [], Nat.toDigits_of_lt_base hlt, digitChar_ne_zero n hlt (by omega)⟩
    · obtain ⟨d, ds, heq, hd⟩ := ih (n / 10) (by omega) (by omega)
      refine ⟨d, ds ++ [Nat.digitChar (n % 10)], ?_, hd⟩
      rw [Nat.toDigits_of_base_le (by omega) (by omega), heq, List.cons_append]

lemma isDigit_iff {c : Char} : c.isDigit = true ↔ 48 ≤ c.toNat ∧ c.toNat ≤ 57 := by
  simp only [Char.isDigit, Bool.and_eq_true, decide_eq_true_eq, ge_iff_le, UInt32.le_iff_toNat_le]
  rfl

lemma digitValue?_of_isDigit {c : Char} (h : c.isDigit = true) :
    digitValue? 10 c = some (c.toNat - '0'.toNat) := by
  have hrange := isDigit_iff.1 h
  have hzero : '0'.toNat = 48 := rfl
  simp only [digitValue?, h, if_true, Option.filter_some, decide_eq_true_eq]
  rw [if_pos (by omega)]

lemma digitValue?_of_not_isDigit {c : Char} (h : c.isDigit = false) : digitValue? 10 c = none := by
  simp only [digitValue?, h, Bool.false_eq_true, if_false]
  split
  · simp
  · split
    · simp
    · rfl

lemma foldlM_digitValue? {ds : List Char} (h : ∀ c ∈ ds, c.isDigit = true) (n : Nat) :
    ds.foldlM (fun n c => (digitValue? 10 c).map (10 * n + ·)) n =
      some (Nat.ofDigitChars 10 ds n) := by
  induction ds generalizing n with
  | nil => simp
  | cons d ds ih =>
    rw [List.foldlM_cons, digitValue?_of_isDigit (h d (by simp)), Nat.ofDigitChars_cons]
    exact ih (fun c hc => h c (by simp [hc])) _

theorem digits?_toDigits (n : Nat) : digits? 10 (Nat.toDigits 10 n) = some n := by
  rw [digits?, List.isEmpty_eq_false_iff.2 Nat.toDigits_ne_nil]
  simpa using foldlM_digitValue? (fun c hc => isDigit_toDigits hc) 0

end Pipework.Decimal
