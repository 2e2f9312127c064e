import Pipework.Proofs.Yaml.Resolve
import Pipework.Proofs.Yaml.Written

/-!
# What is written on one line

Whatever a string holds, the text that is written for it on a line has neither tabs nor line feeds:
a plain scalar has no room for them, and between quotes they are escaped or do not occur
(`OneLine.scalar`).  The same holds of lists in brackets (`OneLine.flowList`).

A scalar is the string itself or begins with a quote (`scalar_eq_self_or_quoted`).
-/

namespace Pipework.Yaml

/-- A text without tabs and line feeds. -/
def OneLine (s : List Char) : Prop := ∀ c ∈ s, c ≠ '\t' ∧ c ≠ '\n'

instance (s : List Char) : Decidable (OneLine s) := List.decidableBAll _ s

namespace OneLine

variable {s t : List Char}

@[simp]
lemma nil : OneLine [] := by simp [OneLine]

@[simp]
lemma cons_iff {c : Char} : OneLine (c :: s) ↔ (c ≠ '\t' ∧ c ≠ '\n') ∧ OneLine s := by
  simp [OneLine]

@[simp]
lemma append_iff : OneLine (s ++ t) ↔ OneLine s ∧ OneLine t :=
  List.forall_mem_append

lemma noFeed (h : OneLine s) : '\n' ∉ s := fun hmem => (h _ hmem).2 rfl

lemma flatMap {α : Type} {xs : List α} {f : α → List Char} (h : ∀ x ∈ xs, OneLine (f x)) :
    OneLine (xs.flatMap f) := by
  intro c hc
  obtain ⟨x, hx, hcx⟩ := List.mem_flatMap.1 hc
  exact h x hx c hcx

lemma intercalate (hs : OneLine s) {parts : List (List Char)} (h : ∀ part ∈ parts, OneLine part) :
    OneLine (s.intercalate parts) := by
  induction parts with
  | nil => exact nil
  | cons part rest ih =>
    have hpart := h part List.mem_cons_self
    have hrest := ih fun p hp => h p (List.mem_cons_of_mem _ hp)
    cases rest with
    | nil => rwa [List.intercalate_singleton]
    | cons next rest =>
      rw [List.intercalate_cons_cons]
      exact append_iff.2 ⟨append_iff.2 ⟨hpart, hs⟩, hrest⟩

lemma of_isPrintable (h : ∀ c ∈ s, isPrintable c = true) (hfeed : '\n' ∉ s) : OneLine s :=
  fun c hc => ⟨ne_tab_of_isPrintable (h c hc), fun heq => hfeed (heq ▸ hc)⟩

lemma toDigits (n : Nat) : OneLine (Nat.toDigits 10 n) := by
  intro c hc
  have hdigit := Decimal.isDigit_toDigits hc
  constructor
  · rintro rfl
    exact absurd hdigit (by decide)
  · rintro rfl
    exact absurd hdigit (by decide)

end OneLine

/-! ## Characters between quotes -/

lemma oneLine_doubleQuoted (s : List Char) : OneLine (Text.doubleQuoted s) := by
  have hbody : OneLine (s.flatMap Text.escapeChar) := by
    refine OneLine.flatMap fun c _ => ?_
    unfold Text.escapeChar
    split
    case h_6 htab _ hfeed =>
      exact OneLine.cons_iff.2 ⟨⟨fun h => by simp_all, fun h => by simp_all⟩, OneLine.nil⟩
    all_goals decide
  rw [Text.doubleQuoted]
  exact OneLine.append_iff.2 ⟨OneLine.cons_iff.2 ⟨by decide, hbody⟩, by decide⟩

lemma toUpper_digitChar : ∀ n < 16, (Nat.digitChar n).toUpper ≠ '\t' ∧
    (Nat.digitChar n).toUpper ≠ '\n' := by decide

lemma mem_toDigits {n : Nat} {c : Char} (h : c ∈ Nat.toDigits 16 n) :
    ∃ d < 16, c = Nat.digitChar d := by
  induction n using Nat.strongRecOn with
  | ind n ih =>
    by_cases hlt : n < 16
    · rw [Nat.toDigits_of_lt_base hlt, List.mem_singleton] at h
      exact ⟨n, hlt, h⟩
    · rw [Nat.toDigits_of_base_le (by omega) (by omega), List.mem_append, List.mem_singleton] at h
      rcases h with h | h
      · exact ih (n / 16) (by omega) h
      · exact ⟨n % 16, by omega, h⟩

lemma oneLine_hex (width n : Nat) : OneLine (hex width n) := by
  refine OneLine.append_iff.2 ⟨fun c hc => ?_, fun c hc => ?_⟩
  · rw [List.eq_of_mem_replicate hc]
    decide
  · obtain ⟨d, hd, rfl⟩ := List.mem_map.1 hc
    obtain ⟨k, hk, rfl⟩ := mem_toDigits hd
    exact toUpper_digitChar k hk

lemma oneLine_escape (c : Char) : OneLine (escape c) := by
  unfold escape
  split
  case h_16 =>
    split
    · exact OneLine.cons_iff.2 ⟨by decide, OneLine.cons_iff.2 ⟨by decide, oneLine_hex _ _⟩⟩
    · split
      · exact OneLine.cons_iff.2 ⟨by decide, OneLine.cons_iff.2 ⟨by decide, oneLine_hex _ _⟩⟩
      · exact OneLine.cons_iff.2 ⟨by decide, OneLine.cons_iff.2 ⟨by decide, oneLine_hex _ _⟩⟩
  all_goals decide

lemma oneLine_writeDouble (s : List Char) : OneLine (writeDouble s) := by
  have hbody : OneLine (s.flatMap doubleChar) := by
    refine OneLine.flatMap fun c _ => ?_
    unfold doubleChar
    split
    · exact oneLine_escape c
    · rename_i hc
      simp only [Bool.or_eq_true, not_or, Bool.not_eq_true, Bool.not_eq_eq_eq_not, Bool.not_true,
        Bool.not_eq_false] at hc
      refine OneLine.cons_iff.2 ⟨⟨ne_tab_of_isPrintable hc.1.1.1, ?_⟩, OneLine.nil⟩
      rintro rfl
      exact absurd hc.1.1.2 (by decide)
  rw [writeDouble]
  exact OneLine.append_iff.2 ⟨OneLine.cons_iff.2 ⟨by decide, hbody⟩, by decide⟩

lemma oneLine_doubleSingleQuote {c : Char} (h : c ≠ '\t' ∧ c ≠ '\n') :
    OneLine (Text.doubleSingleQuote c) := by
  unfold Text.doubleSingleQuote
  split
  · decide
  · exact OneLine.cons_iff.2 ⟨h, OneLine.nil⟩

lemma oneLine_singleQuoted {s : List Char} (h : OneLine s) : OneLine (Text.singleQuoted s) := by
  rw [Text.singleQuoted]
  exact OneLine.append_iff.2
    ⟨OneLine.cons_iff.2 ⟨by decide, OneLine.flatMap fun c hc => oneLine_doubleSingleQuote (h c hc)⟩,
      by decide⟩

lemma oneLine_singleBody {s : List Char} (h : OneLine s) (indent : Nat) (atBreak : Bool) :
    OneLine (singleBody indent atBreak s) := by
  have hspaces : ∀ b : Bool, OneLine (if b then List.replicate indent ' ' else []) := by
    intro b c hc
    cases b with
    | false => simp at hc
    | true =>
      rw [List.eq_of_mem_replicate hc]
      decide
  induction s generalizing atBreak with
  | nil => exact hspaces atBreak
  | cons c rest ih =>
    obtain ⟨hc, hrest⟩ := OneLine.cons_iff.1 h
    rw [singleBody]
    split
    · exact OneLine.cons_iff.2 ⟨hc, ih hrest true⟩
    · exact OneLine.append_iff.2
        ⟨OneLine.append_iff.2 ⟨hspaces atBreak, oneLine_doubleSingleQuote hc⟩, ih hrest false⟩

/-! ## Scalars and lists -/

lemma singleAllowed_of_form {s : List Char} (h : form s = .single) : singleAllowed s = true := by
  unfold form at h
  split at h
  · split at h <;> cases h
  · split at h
    · cases h
    · split at h
      · assumption
      · cases h

/-- The characters of a string that needs no escapes are printable. -/
lemma isPrintable_of_singleAllowed {s : List Char} (h : singleAllowed s = true) :
    ∀ c ∈ s, isPrintable c = true := by
  simp only [singleAllowed, needsEscapes, Bool.not_eq_eq_eq_not, Bool.not_true,
    Bool.or_eq_false_iff, List.any_eq_false, Bool.not_eq_false] at h
  exact fun c hc => by simpa using h.2.1 c hc

lemma newline_notMem {s : List Char} (h : s.any (fun c => c == '\n' || c == '\r') = false) :
    '\n' ∉ s := by
  intro hmem
  have := List.any_eq_false.1 h '\n' hmem
  simp at this

/-- A scalar is the string as it stands, or stands between quotes. -/
theorem scalar_eq_self_or_quoted (s : List Char) :
    (Plain s ∧ scalar s = s) ∨ ∃ q rest, (q = '\'' ∨ q = '"') ∧ scalar s = q :: rest := by
  unfold scalar
  split
  · exact .inr ⟨'"', _, .inr rfl, rfl⟩
  · unfold writeInline
    split
    case h_1 hform => exact .inl ⟨(plain_of_form hform).1, rfl⟩
    case h_2 => exact .inr ⟨'\'', _, .inl rfl, rfl⟩
    case h_3 => exact .inr ⟨'"', _, .inr rfl, rfl⟩
    case h_4 => exact .inr ⟨'"', _, .inr rfl, rfl⟩

theorem OneLine.scalar (s : List Char) : OneLine (scalar s) := by
  unfold Yaml.scalar
  split
  · exact oneLine_doubleQuoted s
  · rename_i hany
    have hfeed : '\n' ∉ s := newline_notMem (by simpa using hany)
    unfold writeInline
    split
    case h_1 hform =>
      exact of_isPrintable (fun c hc => ((plain_of_form hform).1.printable c hc).1) hfeed
    case h_2 hform =>
      have hs : OneLine s :=
        of_isPrintable (isPrintable_of_singleAllowed (singleAllowed_of_form hform)) hfeed
      exact append_iff.2 ⟨cons_iff.2 ⟨by decide, oneLine_singleBody hs _ _⟩, by decide⟩
    case h_3 => exact oneLine_writeDouble s
    case h_4 => exact oneLine_writeDouble s

theorem OneLine.flowList (items : List (List Char)) : OneLine (Text.flowList items) := by
  have hitems : OneLine ([',', ' '].intercalate (items.map Text.doubleQuoted)) :=
    intercalate (by decide) (List.forall_mem_map.2 fun item _ => oneLine_doubleQuoted item)
  rw [Text.flowList]
  exact append_iff.2 ⟨cons_iff.2 ⟨by decide, hitems⟩, by decide⟩

end Pipework.Yaml
