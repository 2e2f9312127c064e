import Mathlib.Data.List.Chain
import Pipework.Pipeline.Basic
import Pipework.Proofs.Text.Lines
import Pipework.Proofs.Yaml.Resolve

/-!
# Identifiers as runs of letters and digits

`runs` are the maximal runs of letters and digits of a name, found by cutting the name at every
other character.  The identifier of a name is its runs in lower case with dashes between them
(`slug_eq_dashed`), whatever the pass over the name remembers of the last character it kept.  What
else is true of identifiers follows from that: which characters they have and where their dashes
stand (`isIdentifier_dashed`), that each is its own identifier (`slug_dashed`), and that a name has
the empty one only if it has no letter or digit (`dashed_runs_eq_nil_iff`).
-/

namespace Pipework

/-- The maximal runs of letters and digits of ASCII in a text, in order. -/
def runs (s : List Char) : List (List Char) :=
  (s.splitOnP (!·.isAlphanum)).filter (!·.isEmpty)

/-- Runs in lower case with dashes between them. -/
def dashed (rs : List (List Char)) : List Char :=
  ['-'].intercalate (rs.map (·.map Char.toLower))

/-- The lower-case letters and the digits of ASCII. -/
def isLowerAlphanum (c : Char) : Bool := c.isLower || c.isDigit

/-- A text of lower-case letters, digits and single dashes, none of which stands at an end. -/
structure IsIdentifier (s : List Char) : Prop where
  chars : ∀ c ∈ s, isLowerAlphanum c = true ∨ c = '-'
  first : s.head? ≠ some '-'
  last : s.getLast? ≠ some '-'
  single : s.IsChain fun c d => c ≠ '-' ∨ d ≠ '-'

/-! ## Characters -/

lemma toLower_of_not_isUpper {c : Char} (h : c.isUpper = false) : c.toLower = c :=
  dif_neg (of_decide_eq_false h)

lemma toNat_toLower {c : Char} (h : c.isUpper = true) : c.toLower.toNat = c.toNat + 32 := by
  have hlower : c.toLower.val = c.val + 32 := congrArg Char.val (dif_pos (of_decide_eq_true h))
  have hbound : c.toNat ≤ 90 := (Yaml.isUpper_iff.1 h).2
  have hadd : (c.val + 32).toNat = (c.toNat + 32) % 2 ^ 32 := UInt32.toNat_add c.val 32
  rw [← Char.toNat_val, hlower, hadd]
  omega

lemma isLower_toLower {c : Char} (h : c.isUpper = true) : c.toLower.isLower = true := by
  have hrange : 65 ≤ c.toNat ∧ c.toNat ≤ 90 := Yaml.isUpper_iff.1 h
  rw [Yaml.isLower_iff, toNat_toLower h]
  simp only [Char.reduceToNat]
  omega

/-- Lower case is lower case already. -/
lemma toLower_toLower (c : Char) : c.toLower.toLower = c.toLower := by
  cases hupper : c.isUpper with
  | false => rw [toLower_of_not_isUpper hupper, toLower_of_not_isUpper hupper]
  | true =>
    refine toLower_of_not_isUpper (Bool.eq_false_iff.2 fun h => ?_)
    have hrange : 65 ≤ c.toNat ∧ c.toNat ≤ 90 := Yaml.isUpper_iff.1 hupper
    have hrange' : 65 ≤ c.toLower.toNat ∧ c.toLower.toNat ≤ 90 := Yaml.isUpper_iff.1 h
    rw [toNat_toLower hupper] at hrange'
    omega

lemma isAlphanum_iff {c : Char} :
    c.isAlphanum = true ↔ (c.isUpper = true ∨ c.isLower = true) ∨ c.isDigit = true := by
  rw [Char.isAlphanum, Bool.or_eq_true, Yaml.isAlpha_iff]

lemma isLowerAlphanum_toLower {c : Char} (h : c.isAlphanum = true) :
    isLowerAlphanum c.toLower = true := by
  rw [isLowerAlphanum, Bool.or_eq_true]
  cases hupper : c.isUpper with
  | false =>
    rw [toLower_of_not_isUpper hupper]
    simpa [hupper] using isAlphanum_iff.1 h
  | true => exact .inl (isLower_toLower hupper)

lemma isAlphanum_of_isLowerAlphanum {c : Char} (h : isLowerAlphanum c = true) :
    c.isAlphanum = true := by
  rw [isLowerAlphanum, Bool.or_eq_true] at h
  exact isAlphanum_iff.2 (h.imp_left .inr)

lemma ne_dash_of_isLowerAlphanum {c : Char} (h : isLowerAlphanum c = true) : c ≠ '-' := by
  rintro rfl
  exact absurd h (by decide)

/-- Letters and digits are no white space. -/
lemma isAlphanum_of_isSpace {c : Char} (h : Text.isSpace c = true) : c.isAlphanum = false := by
  by_contra halnum
  have hword : Yaml.isWord c = true := by
    rw [Bool.not_eq_false] at halnum
    rw [Yaml.isWord, halnum, Bool.true_or]
  obtain ⟨hlow, hhigh, -⟩ := Yaml.toNat_of_isWord hword
  simp only [Text.isSpace, Bool.or_eq_true, Bool.and_eq_true, decide_eq_true_eq, beq_iff_eq] at h
  omega

/-! ## Runs -/

section

variable {c : Char} {s t r : List Char} {rs : List (List Char)}

/-- A character that is in no run ends the one before it. -/
lemma runs_append_cons (hc : c.isAlphanum = false) (s t : List Char) :
    runs (s ++ c :: t) = runs s ++ runs t := by
  rw [runs, List.splitOnP_append_cons s t (by simp [hc]), List.filter_append, runs, runs]

lemma runs_cons_of_not (hc : c.isAlphanum = false) (s : List Char) : runs (c :: s) = runs s :=
  runs_append_cons hc [] s

/-- A text of letters and digits is a run itself. -/
lemma runs_eq_singleton (hne : s ≠ []) (h : ∀ c ∈ s, c.isAlphanum = true) : runs s = [s] := by
  rw [runs, List.splitOnP_eq_singleton fun c hc => by simp [h c hc]]
  simp [hne]

/-- A run goes on as long as there are letters and digits. -/
lemma runs_cons (hc : c.isAlphanum = true) (s : List Char) :
    runs (c :: s) = (c :: s.takeWhile Char.isAlphanum) :: runs (s.dropWhile Char.isAlphanum) := by
  have hrun : runs (c :: s.takeWhile Char.isAlphanum) = [c :: s.takeWhile Char.isAlphanum] := by
    refine runs_eq_singleton (List.cons_ne_nil _ _) (List.forall_mem_cons.2 ⟨hc, fun d hd => ?_⟩)
    exact List.mem_takeWhile_imp hd
  cases hrest : s.dropWhile Char.isAlphanum with
  | nil =>
    have hall : s.takeWhile Char.isAlphanum = s := by
      simpa [hrest] using List.takeWhile_append_dropWhile (p := Char.isAlphanum) (l := s)
    rw [hall] at hrun ⊢
    exact hrun
  | cons d t =>
    have hd : d.isAlphanum = false := by
      have hhead := List.head?_dropWhile_not Char.isAlphanum s
      rw [hrest] at hhead
      simpa using hhead
    calc runs (c :: s)
      _ = runs ((c :: s.takeWhile Char.isAlphanum) ++ d :: t) := by
        rw [← hrest, List.cons_append, List.takeWhile_append_dropWhile]
      _ = (c :: s.takeWhile Char.isAlphanum) :: runs (d :: t) := by
        rw [runs_append_cons hd, hrun, runs_cons_of_not hd, List.singleton_append]

lemma runs_eq_nil_iff : runs s = [] ↔ s.any Char.isAlphanum = false := by
  induction s with
  | nil => simp [runs]
  | cons c s ih =>
    cases hc : c.isAlphanum with
    | true => simp [runs_cons hc, hc]
    | false => simp [runs_cons_of_not hc, hc, ih]

/-- No piece of a text has a character at which the text is cut. -/
lemma not_of_mem_splitOnP {p : Char → Bool} (h : r ∈ s.splitOnP p) : ∀ c ∈ r, p c = false := by
  induction s generalizing r with
  | nil =>
    obtain rfl : r = [] := by simpa using h
    simp
  | cons c s ih =>
    rw [List.splitOnP_cons_eq_if_modifyHead] at h
    obtain ⟨first, rest, hpieces⟩ := List.exists_cons_of_ne_nil (List.splitOnP_ne_nil p s)
    rw [hpieces] at h ih
    cases hc : p c with
    | true =>
      rw [if_pos hc, List.mem_cons] at h
      rcases h with rfl | h
      · simp
      · exact ih h
    | false =>
      rw [if_neg (by simp [hc]), List.modifyHead_cons, List.mem_cons] at h
      rcases h with rfl | h
      · exact List.forall_mem_cons.2 ⟨hc, ih List.mem_cons_self⟩
      · exact ih (List.mem_cons_of_mem _ h)

/-- Runs are of letters and digits, and none is empty. -/
lemma of_mem_runs (h : r ∈ runs s) : r ≠ [] ∧ ∀ c ∈ r, c.isAlphanum = true := by
  rw [runs, List.mem_filter] at h
  exact ⟨by simpa using h.2, fun c hc => by simpa using not_of_mem_splitOnP h.1 c hc⟩

/-! ### Trimming -/

/-- Characters that are in no run make no difference in front. -/
lemma runs_dropWhile {p : Char → Bool} (hp : ∀ c, p c = true → c.isAlphanum = false)
    (s : List Char) : runs (s.dropWhile p) = runs s := by
  induction s with
  | nil => rfl
  | cons c s ih =>
    cases hc : p c with
    | false => rw [List.dropWhile_cons_of_neg (by simp [hc])]
    | true => rw [List.dropWhile_cons_of_pos hc, ih, runs_cons_of_not (hp c hc)]

/-- Nor do they at the end. -/
lemma runs_append (h : t.any Char.isAlphanum = false) (s : List Char) : runs (s ++ t) = runs s := by
  cases t with
  | nil => rw [List.append_nil]
  | cons c t =>
    rw [List.any_cons, Bool.or_eq_false_iff] at h
    rw [runs_append_cons h.1, runs_eq_nil_iff.2 h.2, List.append_nil]

lemma exists_dropEndWhile_append (p : Char → Bool) (s : List Char) :
    ∃ t, s = Text.dropEndWhile p s ++ t ∧ ∀ c ∈ t, p c = true := by
  induction s with
  | nil => exact ⟨[], rfl, by simp⟩
  | cons c s ih =>
    obtain ⟨t, heq, ht⟩ := ih
    rw [Text.dropEndWhile]
    cases hkept : Text.dropEndWhile p s with
    | nil =>
      rw [hkept, List.nil_append] at heq
      subst heq
      cases hc : p c with
      | true => exact ⟨c :: s, rfl, List.forall_mem_cons.2 ⟨hc, ht⟩⟩
      | false => exact ⟨s, rfl, ht⟩
    | cons d kept =>
      rw [hkept] at heq
      exact ⟨t, by rw [List.cons_append, ← heq], ht⟩

/-- White space at the ends of a text is in none of its runs. -/
lemma runs_trim (s : List Char) : runs (Text.trim s) = runs s := by
  obtain ⟨t, heq, ht⟩ := exists_dropEndWhile_append Text.isSpace (Text.trimStart s)
  have hnone : t.any Char.isAlphanum = false :=
    List.any_eq_false.2 fun c hc => by simp [isAlphanum_of_isSpace (ht c hc)]
  calc runs (Text.trim s)
    _ = runs (Text.trim s ++ t) := (runs_append hnone _).symm
    _ = runs (Text.trimStart s) := congrArg runs heq.symm
    _ = runs s := runs_dropWhile (fun _ => isAlphanum_of_isSpace) s

end

/-! ## The pass over a name -/

/-- Every run with a dash in front of it. -/
def behindDash (rs : List (List Char)) : List Char :=
  rs.flatMap fun r => '-' :: r.map Char.toLower

lemma dashed_cons_cons (r r' : List Char) (rs : List (List Char)) :
    dashed (r :: r' :: rs) = r.map Char.toLower ++ '-' :: dashed (r' :: rs) := by
  simp [dashed, List.intercalate_cons_cons]

lemma dashed_cons (r : List Char) (rs : List (List Char)) :
    dashed (r :: rs) = r.map Char.toLower ++ behindDash rs := by
  induction rs generalizing r with
  | nil => simp [dashed, behindDash]
  | cons r' rs ih =>
    rw [dashed_cons_cons, ih]
    simp [behindDash]

/-- The identifier, when the name has ended, from what has been made of it. -/
def slugEnd (made : List Char) : List Char := (made.dropWhile (· == '-')).reverse

lemma slugEnd_cons {c : Char} (hc : c ≠ '-') (made : List Char) :
    slugEnd (c :: made) = made.reverse ++ [c] := by
  rw [slugEnd, List.dropWhile_cons_of_neg (by simpa using hc), List.reverse_cons]

lemma slugEnd_dash_cons {c : Char} (hc : c ≠ '-') (made : List Char) :
    slugEnd ('-' :: c :: made) = made.reverse ++ [c] := by
  rw [slugEnd, List.dropWhile_cons_of_pos rfl, ← slugEnd, slugEnd_cons hc]

/-- A letter or digit is kept, in lower case. -/
lemma slugStep_of_isAlphanum {c : Char} (hc : c.isAlphanum = true) (made : List Char) :
    slugStep made c = c.toLower :: made :=
  if_pos hc

/-- What the rest of a name adds.  Behind a letter or digit it goes on with the last run; behind a
dash every run in it is a new one. -/
lemma slugEnd_foldl {c : Char} (hc : c ≠ '-') (made s : List Char) :
    slugEnd (s.foldl slugStep (c :: made)) = made.reverse ++ c ::
        ((s.takeWhile Char.isAlphanum).map Char.toLower ++
          behindDash (runs (s.dropWhile Char.isAlphanum))) ∧
      slugEnd (s.foldl slugStep ('-' :: c :: made)) =
        made.reverse ++ c :: behindDash (runs s) := by
  induction s generalizing c made with
  | nil => simp [slugEnd_cons hc, slugEnd_dash_cons hc, behindDash, runs]
  | cons d s ih =>
    cases hd : d.isAlphanum with
    | true =>
      have hlower := ne_dash_of_isLowerAlphanum (isLowerAlphanum_toLower hd)
      rw [List.foldl_cons, List.foldl_cons, slugStep_of_isAlphanum hd, slugStep_of_isAlphanum hd,
        (ih hlower _).1, (ih hlower _).1, runs_cons hd]
      simp [hd, behindDash]
    | false =>
      have hstep : slugStep (c :: made) d = '-' :: c :: made := by
        simp [slugStep, hd, hc]
      have hstay : slugStep ('-' :: c :: made) d = '-' :: c :: made := by
        simp [slugStep, hd]
      rw [List.foldl_cons, List.foldl_cons, hstep, hstay, (ih hc made).2]
      simp [hd, runs_cons_of_not hd]

/-- The identifier of a name is its runs in lower case with dashes between them. -/
theorem slug_eq_dashed (name : List Char) : slug name = dashed (runs name) := by
  have hpass (s : List Char) : slugEnd (s.foldl slugStep []) = dashed (runs s) := by
    induction s with
    | nil => rfl
    | cons c s ih =>
      cases hc : c.isAlphanum with
      | true =>
        have hlower := ne_dash_of_isLowerAlphanum (isLowerAlphanum_toLower hc)
        rw [List.foldl_cons, slugStep_of_isAlphanum hc, (slugEnd_foldl hlower [] s).1,
          runs_cons hc, dashed_cons]
        rfl
      | false =>
        have hstay : slugStep [] c = [] := by simp [slugStep, hc]
        rw [List.foldl_cons, hstay, ih, runs_cons_of_not hc]
  rw [← runs_trim]
  exact hpass (Text.trim name)

/-! ## Identifiers -/

/-- What a run is in lower case. -/
def IsSlugWord (w : List Char) : Prop := w ≠ [] ∧ ∀ c ∈ w, isLowerAlphanum c = true

section

variable {w s : List Char} {rs : List (List Char)}

lemma isSlugWord_of_mem_runs {r : List Char} (h : r ∈ runs s) :
    IsSlugWord (r.map Char.toLower) := by
  obtain ⟨hne, hr⟩ := of_mem_runs h
  refine ⟨by simpa using hne, fun c hc => ?_⟩
  obtain ⟨d, hd, rfl⟩ := List.mem_map.1 hc
  exact isLowerAlphanum_toLower (hr d hd)

lemma isIdentifier_nil : IsIdentifier [] := ⟨by simp, by simp, by simp, .nil⟩

lemma IsSlugWord.isIdentifier (h : IsSlugWord w) : IsIdentifier w where
  chars c hc := .inl (h.2 c hc)
  first heq := ne_dash_of_isLowerAlphanum (h.2 _ (List.mem_of_head? heq)) rfl
  last heq := ne_dash_of_isLowerAlphanum (h.2 _ (List.mem_of_getLast? heq)) rfl
  single := by
    refine (List.pairwise_of_forall_mem_list fun c hc d hd => ?_).isChain
    exact .inl (ne_dash_of_isLowerAlphanum (h.2 c hc))

/-- A word and a dash may stand in front of an identifier. -/
lemma IsIdentifier.behind_word (hs : IsIdentifier s) (hne : s ≠ []) (hw : IsSlugWord w) :
    IsIdentifier (w ++ '-' :: s) where
  chars c hc := by
    rcases List.mem_append.1 hc with hc | hc
    · exact .inl (hw.2 c hc)
    · exact (List.mem_cons.1 hc).elim .inr (hs.chars c)
  first := by
    rw [List.head?_append_of_ne_nil _ hw.1]
    exact hw.isIdentifier.first
  last := by
    obtain ⟨c, t, rfl⟩ := List.exists_cons_of_ne_nil hne
    rw [List.getLast?_append, List.getLast?_cons_cons, List.getLast?_cons, Option.some_or,
      ← List.getLast?_cons]
    exact hs.last
  single := by
    refine List.isChain_append.2 ⟨hw.isIdentifier.single, List.isChain_cons.2 ⟨?_, hs.single⟩, ?_⟩
    · exact fun d hd => .inr fun heq => hs.first (heq ▸ hd)
    · exact fun c hc _ _ => .inl (ne_dash_of_isLowerAlphanum (hw.2 c (List.mem_of_getLast? hc)))

lemma dashed_ne_nil {r : List Char} (hr : IsSlugWord (r.map Char.toLower)) (rs : List (List Char)) :
    dashed (r :: rs) ≠ [] := by
  rw [dashed_cons]
  exact List.append_ne_nil_of_left_ne_nil hr.1 _

lemma isIdentifier_dashed (h : ∀ r ∈ rs, IsSlugWord (r.map Char.toLower)) :
    IsIdentifier (dashed rs) := by
  induction rs with
  | nil => exact isIdentifier_nil
  | cons r rs ih =>
    rw [List.forall_mem_cons] at h
    cases rs with
    | nil => simpa [dashed_cons, behindDash] using h.1.isIdentifier
    | cons r' rs =>
      rw [dashed_cons_cons]
      exact (ih h.2).behind_word (dashed_ne_nil (h.2 r' List.mem_cons_self) rs) h.1

/-- Between the dashes of an identifier stand the runs that it was made of. -/
lemma runs_dashed (h : ∀ r ∈ rs, IsSlugWord (r.map Char.toLower)) :
    runs (dashed rs) = rs.map (·.map Char.toLower) := by
  have hword {r : List Char} (hr : IsSlugWord (r.map Char.toLower)) :
      runs (r.map Char.toLower) = [r.map Char.toLower] :=
    runs_eq_singleton hr.1 fun c hc => isAlphanum_of_isLowerAlphanum (hr.2 c hc)
  induction rs with
  | nil => rfl
  | cons r rs ih =>
    rw [List.forall_mem_cons] at h
    cases rs with
    | nil => simpa [dashed_cons, behindDash] using hword h.1
    | cons r' rs =>
      rw [dashed_cons_cons, runs_append_cons rfl, hword h.1, ih h.2]
      rfl

lemma dashed_map_toLower (rs : List (List Char)) :
    dashed (rs.map (·.map Char.toLower)) = dashed rs := by
  have hrun (r : List Char) : (r.map Char.toLower).map Char.toLower = r.map Char.toLower := by
    rw [List.map_map]
    exact List.map_congr_left fun c _ => toLower_toLower c
  simp only [dashed, List.map_map, Function.comp_def, hrun]

/-- An identifier is its own identifier. -/
lemma slug_dashed (h : ∀ r ∈ rs, IsSlugWord (r.map Char.toLower)) :
    slug (dashed rs) = dashed rs := by
  rw [slug_eq_dashed, runs_dashed h, dashed_map_toLower]

lemma dashed_runs_eq_nil_iff : dashed (runs s) = [] ↔ s.any Char.isAlphanum = false := by
  rw [← runs_eq_nil_iff]
  refine ⟨fun heq => ?_, fun heq => by rw [heq]; rfl⟩
  cases hruns : runs s with
  | nil => rfl
  | cons r rs =>
    have hr : IsSlugWord (r.map Char.toLower) :=
      isSlugWord_of_mem_runs (hruns ▸ List.mem_cons_self)
    rw [hruns] at heq
    exact absurd heq (dashed_ne_nil hr rs)

end

/-- The identifier of a name is made of the maximal runs of letters and digits in it, in lower case
and with single dashes between them.  Jobs and steps get it from their names.  It has no other
characters and no dash at its ends, is its own identifier, and is empty exactly if there is no
letter or digit in the name. -/
theorem slug_eq_intercalate_runs (name content : String) :
    slug name.toList = ['-'].intercalate ((runs name.toList).map (·.map Char.toLower)) ∧
      (Job.named name).id.toList = slug name.toList ∧
      (Step.run name content).id.toList = slug name.toList ∧
      (Step.uses name content).id.toList = slug name.toList ∧
      IsIdentifier (slug name.toList) ∧
      slug (slug name.toList) = slug name.toList ∧
      (slug name.toList = [] ↔ name.toList.any Char.isAlphanum = false) := by
  have hruns : ∀ r ∈ runs name.toList, IsSlugWord (r.map Char.toLower) :=
    fun _ => isSlugWord_of_mem_runs
  have hslug : slug name.toList = dashed (runs name.toList) := slug_eq_dashed name.toList
  refine ⟨hslug, String.toList_ofList, String.toList_ofList, String.toList_ofList, ?_⟩
  rw [hslug]
  exact ⟨isIdentifier_dashed hruns, slug_dashed hruns, dashed_runs_eq_nil_iff⟩

/-- Marks and letters that are not of ASCII end a run as blanks do. -/
example : runs "  Déploy: v2!! ".toList = ["D".toList, "ploy".toList, "v2".toList] ∧
    slug "  Déploy: v2!! ".toList = "d-ploy-v2".toList := by
  decide

end Pipework
