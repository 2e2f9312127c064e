import Pipework.Lint.Pattern
import Pipework.Proofs.Text.Lines
import Pipework.Proofs.Yaml.Spelling

/-!
# Words and variables in scripts

`HasWord word s` and `Names name s` say what the linter looks for in a line of a script: a word on
its own, and a reference to a variable.  The linter finds both in a line as it stands.  In a scalar
it still finds every reference (`Names.item_scalar`), but not every word: `ShowsEcho` says in which
strings the word `echo` is still seen once they are written (`mentionsEcho_item_scalar`).
-/

namespace Pipework.Lint

open Text Yaml

/-! ## Places in a text -/

/-- At some place of a text `P` holds of the character in front of it and of the text behind it. -/
def Somewhere (P : Option Char → List Char → Prop) (prev : Option Char) (s : List Char) : Prop :=
  ∃ front back, s = front ++ back ∧ P (front.getLast?.or prev) back

section Somewhere

variable {P : Option Char → List Char → Prop} {prev : Option Char} {c : Char} {s : List Char}

lemma somewhere_none :
    Somewhere P none s ↔ ∃ front back, s = front ++ back ∧ P front.getLast? back := by
  simp only [Somewhere, Option.or_none]

lemma somewhere_nil : Somewhere P prev [] ↔ P prev [] := by
  constructor
  · rintro ⟨front, back, heq, h⟩
    obtain ⟨rfl, rfl⟩ := List.append_eq_nil_iff.1 heq.symm
    exact h
  · intro h
    exact ⟨[], [], rfl, h⟩

lemma somewhere_cons :
    Somewhere P prev (c :: s) ↔ P prev (c :: s) ∨ Somewhere P (some c) s := by
  have hlast : ∀ front : List Char,
      (c :: front).getLast?.or prev = front.getLast?.or (some c) := by
    intro front
    rw [List.getLast?_cons]
    cases front.getLast? <;> rfl
  constructor
  · rintro ⟨front, back, heq, h⟩
    cases front with
    | nil => exact .inl (heq ▸ h)
    | cons d front =>
      obtain ⟨rfl, rfl⟩ := List.cons.inj heq
      rw [hlast] at h
      exact .inr ⟨front, back, rfl, h⟩
  · rintro (h | ⟨front, back, rfl, h⟩)
    · exact ⟨[], c :: s, rfl, h⟩
    · rw [← hlast] at h
      exact ⟨c :: front, back, rfl, h⟩

/-- A search from left to right finds what is somewhere. -/
lemma isSome_firstMatch {α : Type} (pattern : Option Char → List Char → Option α) :
    (firstMatch pattern prev s).isSome = true ↔
      Somewhere (fun prev s => (pattern prev s).isSome = true) prev s := by
  induction s generalizing prev with
  | nil => rw [firstMatch, somewhere_nil]
  | cons c s ih =>
    rw [firstMatch, somewhere_cons, ← ih]
    cases pattern prev (c :: s) <;> simp

end Somewhere

/-! ## Words -/

/-- The text begins with a word, which ends there. -/
def StartsWord (word s : List Char) : Prop :=
  ∃ back, s = word ++ back ∧ ∀ c ∈ back.head?, isWordChar c = false

/-- A word stands in the text on its own. -/
def HasWord (word s : List Char) : Prop :=
  ∃ front back, s = front ++ back ∧ (∀ c ∈ front.getLast?, isWordChar c = false) ∧
    StartsWord word back

/-- The word by which scripts print. -/
def echo : List Char := "echo".toList

lemma isWordChar_echo : ∀ c ∈ echo, isWordChar c = true := List.all_eq_true.1 (by decide)

lemma startsWord_nil {s : List Char} :
    StartsWord [] s ↔ ∀ c ∈ s.head?, isWordChar c = false := by
  constructor
  · rintro ⟨back, rfl, h⟩
    exact h
  · intro h
    exact ⟨s, rfl, h⟩

lemma startsWord_cons {c d : Char} {word s : List Char} :
    StartsWord (c :: word) (d :: s) ↔ d = c ∧ StartsWord word s := by
  constructor
  · rintro ⟨back, heq, h⟩
    obtain ⟨rfl, rfl⟩ := List.cons.inj heq
    exact ⟨rfl, back, rfl, h⟩
  · rintro ⟨rfl, back, rfl, h⟩
    exact ⟨back, rfl, h⟩

lemma not_startsWord_echo {s : List Char} (h : s.head? ≠ some 'e') : ¬ StartsWord echo s := by
  rintro ⟨back, rfl, -⟩
  exact h rfl

lemma startsWord_append {word rest : List Char} :
    StartsWord word (word ++ rest) ↔ ∀ c ∈ rest.head?, isWordChar c = false := by
  constructor
  · rintro ⟨back, heq, h⟩
    rwa [List.append_cancel_left heq]
  · intro h
    exact ⟨rest, rfl, h⟩

/-- The word `echo` stands at a place of a text. -/
def EchoAt (prev : Option Char) (s : List Char) : Prop :=
  (∀ c ∈ prev, isWordChar c = false) ∧ StartsWord echo s

lemma not_any_iff {o : Option Char} :
    (!o.any isWordChar) = true ↔ ∀ c ∈ o, isWordChar c = false := by
  cases o <;> simp

lemma isSome_wholeWord {prev : Option Char} {s : List Char} :
    (wholeWord echo prev s).isSome = true ↔ EchoAt prev s := by
  unfold EchoAt wholeWord
  cases hword : echo.isPrefixOf? s with
  | none =>
    have hnot : ¬ StartsWord echo s := by
      rintro ⟨back, rfl, -⟩
      rw [List.isPrefixOf?_eq_some_iff_append_eq.2 rfl] at hword
      cases hword
    simp [hnot]
  | some rest =>
    obtain rfl := List.isPrefixOf?_eq_some_iff_append_eq.1 hword
    have hfront : isBoundary prev (echo ++ rest).head? = !prev.any isWordChar :=
      Bool.bne_true _
    have hback : isBoundary echo.getLast? rest.head? = !rest.head?.any isWordChar :=
      Bool.true_bne _
    rw [startsWord_append, ← not_any_iff, ← not_any_iff, ← Bool.and_eq_true]
    simp only [hfront, hback]
    cases !prev.any isWordChar && !rest.head?.any isWordChar <;> simp

lemma hasWord_iff {s : List Char} : HasWord echo s ↔ Somewhere EchoAt none s :=
  (somewhere_none (P := EchoAt)).symm

/-- The linter finds the word `echo` where it stands on its own. -/
theorem mentionsEcho_iff {s : List Char} : mentionsEcho s = true ↔ HasWord echo s := by
  rw [mentionsEcho, ← echo, isSome_firstMatch, hasWord_iff]
  simp only [isSome_wholeWord]

/-! ## Words in scalars -/

/-- In the scalar of a string the word `echo` is seen: it stands there on its own and not right
behind an escape, or it is made of the letter of an escape with `cho` behind it. -/
def ShowsEcho (escaped : Char → Bool) (s : List Char) : Prop :=
  ∃ front back, s = front ++ back ∧
    ((∀ c ∈ front.getLast?, isWordChar c = false ∧ escaped c = false) ∧ StartsWord echo back ∨
      escaped escapeCharacter = true ∧
        ∃ rest, back = escapeCharacter :: rest ∧ StartsWord echo.tail rest)

/-- The word `echo` is seen from a place of a string on, once it is written. -/
def ShownAt (escaped : Char → Bool) (prev : Option Char) (s : List Char) : Prop :=
  (∀ c ∈ prev, isWordChar c = false ∧ escaped c = false) ∧ StartsWord echo s ∨
    escaped escapeCharacter = true ∧
      ∃ rest, s = escapeCharacter :: rest ∧ StartsWord echo.tail rest

lemma exists_cons_of_spelled {escaped : Char → Bool} {c : Char} {piece : List Char}
    (h : Spelled escaped c piece) :
    ∃ d rest, piece = d :: rest ∧
      (d = c ∧ rest = [] ∨ isWordChar d = false ∧ isWordChar c = false) := by
  cases h with
  | self _ => exact ⟨c, [], rfl, .inl ⟨rfl, rfl⟩⟩
  | apart _ hkept hne hpiece =>
    obtain ⟨d, rest, rfl⟩ := List.exists_cons_of_ne_nil hne
    exact ⟨d, rest, rfl, .inr ⟨hpiece d List.mem_cons_self, isWordChar_eq_false_of_isKept hkept⟩⟩
  | escape _ hkept _ _ _ _ =>
    exact ⟨'\\', _, rfl, .inr ⟨by decide, isWordChar_eq_false_of_isKept hkept⟩⟩

lemma showsEcho_iff {escaped : Char → Bool} {s : List Char} :
    ShowsEcho escaped s ↔ Somewhere (ShownAt escaped) none s :=
  (somewhere_none (P := ShownAt escaped)).symm

/-- A word begins where it did. -/
lemma startsWord_spells {escaped : Char → Bool} {s t word closing : List Char}
    (h : Spells escaped s t) (hword : ∀ c ∈ word, isWordChar c = true)
    (hclosing : ∀ c ∈ closing, isWordChar c = false) :
    StartsWord word (t ++ closing) ↔ StartsWord word s := by
  induction word generalizing s t with
  | nil =>
    rw [startsWord_nil, startsWord_nil]
    cases h with
    | nil =>
      simp only [List.nil_append, List.head?_nil, Option.not_mem_none, false_implies, implies_true,
        iff_true]
      exact fun c hc => hclosing c (List.mem_of_mem_head? hc)
    | cons hc hs =>
      obtain ⟨d, rest, rfl, hd⟩ := exists_cons_of_spelled hc
      rcases hd with ⟨rfl, rfl⟩ | ⟨hd, hc⟩
      · simp
      · simp [hd, hc]
  | cons x word ih =>
    obtain ⟨hx, hword⟩ := List.forall_mem_cons.1 hword
    cases h with
    | nil =>
      constructor
      · rintro ⟨back, rfl, -⟩
        have hnot := hclosing x List.mem_cons_self
        rw [hx] at hnot
        cases hnot
      · rintro ⟨back, heq, -⟩
        cases heq
    | cons hc hs =>
      obtain ⟨d, rest, rfl, hd⟩ := exists_cons_of_spelled hc
      rcases hd with ⟨rfl, rfl⟩ | ⟨hd, hc⟩
      · rw [List.singleton_append, List.cons_append, startsWord_cons, startsWord_cons,
          ih hs hword]
      · rw [List.cons_append, List.cons_append, startsWord_cons, startsWord_cons]
        constructor
        · rintro ⟨rfl, -⟩
          rw [hd] at hx
          cases hx
        · rintro ⟨rfl, -⟩
          rw [hc] at hx
          cases hx

/-- Nothing begins with the word in a part without its first letter. -/
lemma somewhere_echo_append {prev : Option Char} {front s : List Char} (h : 'e' ∉ front) :
    Somewhere EchoAt prev (front ++ s) ↔ Somewhere EchoAt (front.getLast?.or prev) s := by
  induction front generalizing prev with
  | nil => rfl
  | cons c front ih =>
    rw [List.mem_cons, not_or] at h
    obtain ⟨hc, hfront⟩ := h
    have hnot : ¬ EchoAt prev (c :: (front ++ s)) := by
      rintro ⟨-, hstarts⟩
      exact not_startsWord_echo (by simpa using Ne.symm hc) hstarts
    have hlast : front.getLast?.or (some c) = (c :: front).getLast?.or prev := by
      rw [List.getLast?_cons]
      cases front.getLast? <;> rfl
    rw [List.cons_append, somewhere_cons, ih hfront, hlast]
    simp [hnot]

lemma e_notMem {s : List Char} (h : ∀ c ∈ s, isWordChar c = false) : 'e' ∉ s :=
  fun hmem => absurd (h 'e' hmem) (by decide)

lemma not_somewhere_echo {prev : Option Char} {s : List Char} (h : 'e' ∉ s) :
    ¬ Somewhere EchoAt prev s := by
  rw [← List.append_nil s, somewhere_echo_append h, somewhere_nil]
  rintro ⟨-, back, heq, -⟩
  cases heq

lemma not_shownAt {escaped : Char → Bool} {prev : Option Char} {c : Char} {s : List Char}
    (hc : isWordChar c = false) (hesc : c = escapeCharacter → escaped c = false) :
    ¬ ShownAt escaped prev (c :: s) := by
  rintro (⟨-, back, heq, -⟩ | ⟨hescaped, rest, heq, -⟩)
  · obtain ⟨rfl, -⟩ := List.cons.inj heq
    exact absurd hc (by decide)
  · obtain ⟨rfl, -⟩ := List.cons.inj heq
    rw [hesc rfl] at hescaped
    cases hescaped

section Spells

variable {escaped : Char → Bool} {c : Char} {piece s t closing : List Char}
  {prev prev' : Option Char}

/-- A character that stands for itself begins the word in both or in neither. -/
lemma echoAt_self (hself : escaped c = false) (hs : Spells escaped s t)
    (hclosing : ∀ c ∈ closing, isWordChar c = false)
    (hprev : (∀ c ∈ prev', isWordChar c = false) ↔
      ∀ c ∈ prev, isWordChar c = false ∧ escaped c = false) :
    EchoAt prev' (c :: (t ++ closing)) ↔ ShownAt escaped prev (c :: s) := by
  have hstarts : StartsWord echo (c :: (t ++ closing)) ↔ StartsWord echo (c :: s) :=
    startsWord_spells (.cons (.self hself) hs) isWordChar_echo hclosing
  rw [EchoAt, hstarts, hprev, ShownAt, iff_self_or]
  rintro ⟨hescaped, rest, heq, -⟩
  obtain ⟨rfl, -⟩ := List.cons.inj heq
  rw [hself] at hescaped
  cases hescaped

/-- The letter of an escape begins the word if the rest of the word stands behind the escape. -/
lemma echoAt_escape (hescaped : escaped escapeCharacter = true) (hs : Spells escaped s t)
    (hclosing : ∀ c ∈ closing, isWordChar c = false) :
    EchoAt (some '\\') ('e' :: (t ++ closing)) ↔ ShownAt escaped prev (escapeCharacter :: s) := by
  have hrest : StartsWord echo.tail (t ++ closing) ↔ StartsWord echo.tail s :=
    startsWord_spells hs (fun c hc => isWordChar_echo c (List.mem_of_mem_tail hc)) hclosing
  have hletter : StartsWord echo ('e' :: (t ++ closing)) ↔ StartsWord echo.tail (t ++ closing) :=
    startsWord_cons.trans (and_iff_right rfl)
  have hnot : ¬ StartsWord echo (escapeCharacter :: s) :=
    not_startsWord_echo (by simp [escapeCharacter])
  rw [EchoAt, ShownAt, hletter, hrest]
  simp [hnot, hescaped, isWordChar]

/-- Where the word does not begin in what is written for a character, it is seen behind it or not
at all. -/
lemma somewhere_spelled (hpiece : 'e' ∉ piece) (hnot : ¬ ShownAt escaped prev (c :: s))
    (hnext : Somewhere EchoAt (piece.getLast?.or prev') (t ++ closing) ↔
      Somewhere (ShownAt escaped) (some c) s) :
    Somewhere EchoAt prev' (piece ++ t ++ closing) ↔
      Somewhere (ShownAt escaped) prev (c :: s) := by
  rw [List.append_assoc, somewhere_echo_append hpiece, somewhere_cons, hnext]
  simp [hnot]

/-- If what stands in front separates words in both, the word is seen in what is written for a
string where it is shown in the string. -/
lemma somewhere_spells (h : Spells escaped s t) (hclosing : ∀ c ∈ closing, isWordChar c = false)
    (hprev : (∀ c ∈ prev', isWordChar c = false) ↔
      ∀ c ∈ prev, isWordChar c = false ∧ escaped c = false) :
    Somewhere EchoAt prev' (t ++ closing) ↔ Somewhere (ShownAt escaped) prev s := by
  induction h generalizing prev prev' with
  | nil =>
    have hnone : ¬ ShownAt escaped prev [] := by
      rintro (⟨-, back, heq, -⟩ | ⟨-, rest, heq, -⟩)
      · cases heq
      · cases heq
    rw [List.nil_append, somewhere_nil]
    simp [hnone, not_somewhere_echo (e_notMem hclosing)]
  | @cons c piece s t hc hs ih =>
    cases hc with
    | self hself =>
      have hnext : Somewhere EchoAt (some c) (t ++ closing) ↔
          Somewhere (ShownAt escaped) (some c) s := ih (by simp [hself])
      rw [List.append_assoc, List.singleton_append, somewhere_cons, somewhere_cons, hnext,
        echoAt_self hself hs hclosing hprev]
    | apart hself hkept hne hpiece =>
      have hc := isWordChar_eq_false_of_isKept hkept
      have hlast := hpiece _ (List.getLast_mem hne)
      refine somewhere_spelled (e_notMem hpiece) (not_shownAt hc fun _ => hself) (ih ?_)
      simp [List.getLast?_eq_getLast_of_ne_nil hne, hlast, hself, hc]
    | @escape name hescape hkept hne hname he hesc =>
      by_cases hmem : 'e' ∈ name
      · -- The escape is the one that ends with the first letter of the word.
        obtain rfl := he hmem
        obtain rfl := hesc.1 hmem
        have hnext : Somewhere EchoAt (some 'e') (t ++ closing) ↔
            Somewhere (ShownAt escaped) (some escapeCharacter) s :=
          ih (by simp [hescape, isWordChar])
        have hbackslash : ¬ EchoAt prev' ('\\' :: 'e' :: (t ++ closing)) :=
          fun h => not_startsWord_echo (by simp) h.2
        rw [List.append_assoc, List.cons_append, List.singleton_append, somewhere_cons,
          or_iff_right hbackslash, somewhere_cons, somewhere_cons, hnext,
          echoAt_escape hescape hs hclosing]
      · have hfront : 'e' ∉ '\\' :: name := by
          rw [List.mem_cons, not_or]
          exact ⟨by decide, hmem⟩
        have hnot : ¬ ShownAt escaped prev (c :: s) :=
          not_shownAt (isWordChar_eq_false_of_isKept hkept) fun heq => absurd (hesc.2 heq) hmem
        have hlast := hname _ (List.getLast_mem hne)
        refine somewhere_spelled hfront hnot (ih ?_)
        simp [List.getLast?_cons, List.getLast?_eq_getLast_of_ne_nil hne, hlast, hescape]

end Spells

lemma isWordChar_quote {quote s t : List Char}
    (h : quote = [] ∧ t = s ∨ quote = ['\''] ∨ quote = ['"']) :
    ∀ c ∈ quote, isWordChar c = false := by
  rcases h with ⟨rfl, -⟩ | rfl | rfl
  · exact List.forall_mem_nil _
  · exact List.forall_mem_singleton.2 (by decide)
  · exact List.forall_mem_singleton.2 (by decide)

/-- In an item of a list the linter finds the word where the item's string shows it. -/
theorem mentionsEcho_item_scalar (s : List Char) :
    mentionsEcho ('-' :: ' ' :: scalar s) = true ↔ ShowsEcho (standsEscaped s) s := by
  obtain ⟨quote, t, hquote, ht, hscalar⟩ := exists_spells_scalar s
  have hopening : ∀ c ∈ '-' :: ' ' :: quote, isWordChar c = false :=
    List.forall_mem_cons.2 ⟨by decide, List.forall_mem_cons.2 ⟨by decide, isWordChar_quote hquote⟩⟩
  have hprev : (∀ c ∈ ('-' :: ' ' :: quote).getLast?.or none, isWordChar c = false) ↔
      ∀ c ∈ (none : Option Char), isWordChar c = false ∧ standsEscaped s c = false := by
    refine iff_of_true (fun c hc => ?_) (by simp)
    rw [Option.or_none] at hc
    exact hopening c (List.mem_of_getLast? hc)
  have htext : '-' :: ' ' :: scalar s = ('-' :: ' ' :: quote) ++ (t ++ quote) := by
    rw [hscalar, List.append_assoc]
    rfl
  rw [mentionsEcho_iff, hasWord_iff, htext, somewhere_echo_append (e_notMem hopening),
    somewhere_spells ht (isWordChar_quote hquote) hprev, showsEcho_iff]

/-! ## Variables -/

/-- A text refers to the variable `name`: in braces, or where no further letter, digit or underscore
belongs to the name. -/
def Names (name s : List Char) : Prop :=
  ∃ front back, s = front ++ back ∧
    ((∃ rest, back = '$' :: '\x7b' :: (name ++ '\x7d' :: rest)) ∨
      ∃ rest, back = '$' :: (name ++ rest) ∧ ∀ c ∈ rest.head?, isNameChar c = false)

/-- What follows a reference to a variable is among the matches, if the matches before it end in
time. -/
lemma mem_allMatches {name : List Char} (hname : '$' ∉ name) (front rest : List Char) {skip : Nat}
    (hskip : skip ≤ front.length) (prev : Option Char) :
    rest.head? ∈ allMatches (fun _ rest =>
      (dollarName name rest).map fun after => (after.head?, name.length + 1)) skip prev
        (front ++ '$' :: (name ++ rest)) := by
  induction front generalizing skip prev with
  | nil =>
    obtain rfl : skip = 0 := Nat.le_zero.1 hskip
    have hhere : dollarName name ('$' :: (name ++ rest)) = some rest :=
      List.isPrefixOf?_eq_some_iff_append_eq.2 rfl
    rw [List.nil_append, allMatches, hhere]
    exact List.mem_cons_self
  | cons c front ih =>
    rw [List.length_cons] at hskip
    cases skip with
    | succ skip => exact ih (Nat.le_of_succ_le_succ hskip) _
    | zero =>
      rw [List.cons_append, allMatches]
      cases hhere : dollarName name (c :: (front ++ '$' :: (name ++ rest))) with
      | none => exact ih (Nat.zero_le _) _
      | some after =>
        -- The next dollar sign is not in the name, so that the match ends before it.
        have heq : '$' :: name ++ after = c :: (front ++ '$' :: (name ++ rest)) :=
          List.isPrefixOf?_eq_some_iff_append_eq.1 hhere
        have hlen : name.length ≤ front.length := by
          rcases List.append_eq_append_iff.1 (List.cons.inj heq).2 with
            ⟨middle, rfl, -⟩ | ⟨middle, rfl, hmiddle⟩
          · exact (List.prefix_append name middle).length_le
          · cases middle with
            | nil => exact Nat.le_of_eq (by rw [List.append_nil])
            | cons d middle =>
              obtain ⟨rfl, -⟩ := List.cons.inj hmiddle
              exact absurd (List.mem_append_right _ List.mem_cons_self) hname
        exact List.mem_cons_of_mem _ (ih hlen _)

/-- The linter finds every reference. -/
theorem refersTo_of_names {name s : List Char} (hname : '$' ∉ name) (h : Names name s) :
    refersTo name s = true := by
  obtain ⟨front, back, rfl, ⟨rest, rfl⟩ | ⟨rest, rfl, hnext⟩⟩ := h
  · have hbraces : contains ('$' :: '\x7b' :: name ++ ['\x7d'])
        (front ++ (('$' :: '\x7b' :: name ++ ['\x7d']) ++ rest)) = true :=
      contains_append (List.cons_ne_nil _ _) front rest
    rw [List.append_assoc] at hbraces
    rw [refersTo, Bool.or_eq_true]
    exact .inl hbraces
  · have hmatch := mem_allMatches hname front rest (Nat.zero_le _) none
    have hends : (!rest.head?.any isNameChar) = true := by
      cases hhead : rest.head? with
      | none => rfl
      | some c => simp [hnext c hhead]
    rw [refersTo, List.any_eq_true.2 ⟨_, hmatch, hends⟩, Bool.or_true]

lemma isWordChar_of_isNameChar {c : Char} (h : isNameChar c = true) : isWordChar c = true :=
  isWordChar_of_isWord h

/-- A reference in a string is one in what is written for it. -/
lemma Names.spells {escaped : Char → Bool} {name s t opening closing : List Char}
    (h : Names name s) (hname : ∀ c ∈ name, isWordChar c = true) (hs : Spells escaped s t)
    (hclosing : ∀ c ∈ closing, isWordChar c = false) : Names name (opening ++ (t ++ closing)) := by
  have hkept : ∀ c ∈ name, isKept c = true := fun c hc => by simp [isKept, hname c hc]
  obtain ⟨front, back, rfl, hback⟩ := h
  obtain ⟨u, v, rfl, -, hv⟩ := hs.exists_append
  refine ⟨opening ++ u, v ++ closing, by simp, ?_⟩
  rcases hback with ⟨rest, rfl⟩ | ⟨rest, rfl, hnext⟩
  · have hback : '$' :: '\x7b' :: (name ++ '\x7d' :: rest) =
        ('$' :: '\x7b' :: (name ++ ['\x7d'])) ++ rest := by simp
    obtain ⟨w, rest', rfl, hw, -⟩ := (hback ▸ hv).exists_append
    obtain rfl : w = '$' :: '\x7b' :: (name ++ ['\x7d']) := by
      refine hw.eq_of_isKept ?_
      simp only [List.forall_mem_cons, List.forall_mem_append]
      exact ⟨by decide, by decide, hkept, by decide, List.forall_mem_nil _⟩
    exact .inl ⟨rest' ++ closing, by simp⟩
  · obtain ⟨w, rest', rfl, hw, hrest'⟩ := Spells.exists_append (s := '$' :: name) hv
    obtain rfl : w = '$' :: name :=
      hw.eq_of_isKept (List.forall_mem_cons.2 ⟨by decide, hkept⟩)
    refine .inr ⟨rest' ++ closing, by simp, fun d hd => ?_⟩
    have hseparate : d ∈ rest.head? ∨ isWordChar d = false := by
      cases rest' with
      | nil => exact .inr (hclosing d (List.mem_of_mem_head? hd))
      | cons e rest' => exact hrest'.head d hd
    rcases hseparate with hd | hd
    · exact hnext d hd
    · by_contra hname
      rw [isWordChar_of_isNameChar (Bool.not_eq_false _ ▸ hname)] at hd
      cases hd

/-- An item of a list refers to the variables that its string refers to. -/
theorem Names.item_scalar {name s : List Char} (h : Names name s)
    (hname : ∀ c ∈ name, isWordChar c = true) : Names name ('-' :: ' ' :: scalar s) := by
  obtain ⟨quote, t, hquote, ht, hscalar⟩ := exists_spells_scalar s
  have hnames : Names name (('-' :: ' ' :: quote) ++ (t ++ quote)) :=
    h.spells hname ht (isWordChar_quote hquote)
  rwa [List.cons_append, List.cons_append, ← List.append_assoc, ← hscalar] at hnames

end Pipework.Lint
