import Mathlib.Data.List.Basic
import Mathlib.Data.List.TakeWhile
import Mathlib.Tactic.Lemma
import Pipework.Lint.Rules

/-!
# Rules that read the structure of a document

Keys are those of structural lines only, so that most rules see nothing of a document but the lines
of its structure, in their order: `skeleton`.  For each of these rules there is a lemma that says
so.  What the report has beside them is found on single lines (`problems_reportLines_congr`).

None of these rules looks at a line for more than what it is in the structure either.  A change of
lines that keeps that is `Faithful`, and the rules tell the same of the changed lines.
-/

namespace Pipework.Lint

open Text

/-- The lines of a document's structure. -/
def skeleton (lines : List Line) : List Line := lines.filter Line.isStructural

lemma skeleton_append (front back : List Line) :
    skeleton (front ++ back) = skeleton front ++ skeleton back := List.filter_append ..

lemma skeleton_cons_of_pos {l : Line} (h : l.isStructural = true) (lines : List Line) :
    skeleton (l :: lines) = l :: skeleton lines := List.filter_cons_of_pos h

lemma skeleton_cons_of_neg {l : Line} (h : l.isStructural = false) (lines : List Line) :
    skeleton (l :: lines) = skeleton lines := List.filter_cons_of_neg (by simp [h])

/-! ## What only structural lines have -/

section Line

variable {l : Line}

lemma isTopLevel_eq_false (h : l.isStructural = false) : l.isTopLevel = false := by
  rw [Line.isTopLevel, h, Bool.false_and]

lemma key?_eq_none (h : l.isStructural = false) : l.key? = none := by
  rw [Line.key?, Line.keyAndRest?, h]
  rfl

lemma value?_eq_none (h : l.isStructural = false) : l.value? = none := by
  rw [Line.value?, Line.keyAndRest?, h]
  rfl

lemma hasKey_eq_false (h : l.isStructural = false) (name : String) : l.hasKey name = false := by
  rw [Line.hasKey, key?_eq_none h]
  rfl

lemma hasKeys_eq_false (h : l.isStructural = false) (name₁ name₂ name₃ : String) :
    (l.hasKey name₁ || l.hasKey name₂ || l.hasKey name₃) = false := by
  rw [hasKey_eq_false h, hasKey_eq_false h, hasKey_eq_false h]
  rfl

lemma stageOf?_eq_none_of_not_isStructural (h : l.isStructural = false) : stageOf? l = none := by
  rw [stageOf?, hasKey_eq_false h]
  rfl

end Line

/-! ## Searching the structure -/

section Filter

variable {α β : Type} {p q : α → Bool}

/-- What is left out does not end a run. -/
lemma dropWhile_filter (h : ∀ x, q x = false → p x = true) (xs : List α) :
    (xs.filter q).dropWhile p = (xs.dropWhile p).filter q := by
  induction xs with
  | nil => rfl
  | cons x rest ih =>
    by_cases hq : q x = true
    · rw [List.filter_cons_of_pos hq]
      by_cases hp : p x = true
      · rw [List.dropWhile_cons_of_pos hp, List.dropWhile_cons_of_pos hp, ih]
      · rw [List.dropWhile_cons_of_neg hp, List.dropWhile_cons_of_neg hp,
          List.filter_cons_of_pos hq]
    · rw [List.filter_cons_of_neg hq, List.dropWhile_cons_of_pos (h x (by simpa using hq)), ih]

lemma takeWhile_filter (h : ∀ x, q x = false → p x = true) (xs : List α) :
    (xs.filter q).takeWhile p = (xs.takeWhile p).filter q := by
  induction xs with
  | nil => rfl
  | cons x rest ih =>
    by_cases hq : q x = true
    · rw [List.filter_cons_of_pos hq]
      by_cases hp : p x = true
      · rw [List.takeWhile_cons_of_pos hp, List.takeWhile_cons_of_pos hp,
          List.filter_cons_of_pos hq, ih]
      · rw [List.takeWhile_cons_of_neg hp, List.takeWhile_cons_of_neg hp, List.filter_nil]
    · rw [List.filter_cons_of_neg hq, List.takeWhile_cons_of_pos (h x (by simpa using hq)),
        List.filter_cons_of_neg hq, ih]

end Filter

section Skeleton

variable (lines : List Line) {p : Line → Bool}

/-- What is said of structural lines only is said of them in the skeleton. -/
lemma isStructural_and (h : ∀ l, l.isStructural = false → p l = false) :
    (fun l => l.isStructural && p l) = p := by
  funext l
  cases hl : l.isStructural with
  | true => rw [Bool.true_and]
  | false => rw [Bool.false_and, h l hl]

lemma filter_skeleton :
    (skeleton lines).filter Line.isStructural = lines.filter Line.isStructural := by
  simp [skeleton]

lemma any_skeleton (h : ∀ l, l.isStructural = false → p l = false) :
    (skeleton lines).any p = lines.any p := by
  rw [skeleton, List.any_filter, isStructural_and h]

lemma find?_skeleton (h : ∀ l, l.isStructural = false → p l = false) :
    (skeleton lines).find? p = lines.find? p := by
  simp only [skeleton, List.find?_filter, Bool.decide_and, Bool.decide_eq_true,
    isStructural_and h]

lemma countP_skeleton (h : ∀ l, l.isStructural = false → p l = false) :
    (skeleton lines).countP p = lines.countP p := by
  simp only [skeleton, List.countP_filter, Bool.and_comm (p _), isStructural_and h]

lemma filterMap_skeleton {α : Type} {f : Line → Option α}
    (h : ∀ l, l.isStructural = false → f l = none) :
    (skeleton lines).filterMap f = lines.filterMap f := by
  rw [skeleton, List.filterMap_filter]
  congr 1
  funext l
  cases hl : l.isStructural with
  | true => rfl
  | false => simp [h l hl]

lemma topLevelKey_eq_false {name : String} (l : Line) (h : l.isStructural = false) :
    (l.isTopLevel && l.hasKey name) = false := by
  rw [hasKey_eq_false h, Bool.and_false]

/-- The lines from a header on. -/
lemma dropWhile_skeleton (name : String) :
    (skeleton lines).dropWhile (fun l => !(l.isTopLevel && l.hasKey name)) =
      skeleton (lines.dropWhile fun l => !(l.isTopLevel && l.hasKey name)) :=
  dropWhile_filter (fun l h => by rw [topLevelKey_eq_false l h]; rfl) lines

lemma isStructural_of_dropWhile {name : String} {header : Line} {rest : List Line}
    (h : lines.dropWhile (fun l => !(l.isTopLevel && l.hasKey name)) = header :: rest) :
    header.isStructural = true := by
  have hhead : (!(header.isTopLevel && header.hasKey name)) = false := by
    have hfirst := List.head?_dropWhile_not (fun l => !(l.isTopLevel && l.hasKey name)) lines
    rwa [h] at hfirst
  by_contra hnot
  rw [topLevelKey_eq_false header (by simpa using hnot)] at hhead
  cases hhead

lemma blockChildren_skeleton (name : String) :
    blockChildren (skeleton lines) name = skeleton (blockChildren lines name) := by
  unfold blockChildren
  rw [dropWhile_skeleton]
  cases hdrop : lines.dropWhile fun l => !(l.isTopLevel && l.hasKey name) with
  | nil => rfl
  | cons header rest =>
    rw [skeleton_cons_of_pos (isStructural_of_dropWhile lines hdrop)]
    exact takeWhile_filter (fun l h => by rw [isTopLevel_eq_false h]; rfl) rest

end Skeleton

/-! ## The rules -/

section Rules

variable (lines : List Line)

lemma hasTopLevelKey_skeleton (name : String) :
    hasTopLevelKey (skeleton lines) name = hasTopLevelKey lines name :=
  any_skeleton lines topLevelKey_eq_false

lemma repeatedKeys_skeleton (seen : List (List Char)) :
    repeatedKeys seen (skeleton lines) = repeatedKeys seen lines := by
  induction lines generalizing seen with
  | nil => rfl
  | cons l rest ih =>
    cases hl : l.isStructural with
    | false =>
      rw [skeleton_cons_of_neg hl, repeatedKeys, key?_eq_none hl]
      exact ih seen
    | true =>
      rw [skeleton_cons_of_pos hl, repeatedKeys, repeatedKeys]
      simp only [ih]

lemma triggerRisks_skeleton : triggerRisks (skeleton lines) = triggerRisks lines := by
  unfold triggerRisks
  rw [blockChildren_skeleton]
  simp only [find?_skeleton _ fun _ h => h]
  cases (blockChildren lines "on").find? Line.isStructural with
  | none => rfl
  | some first =>
    have hcomm : (skeleton (blockChildren lines "on")).filter (·.indent == first.indent) =
        skeleton ((blockChildren lines "on").filter (·.indent == first.indent)) :=
      List.filter_comm ..
    simp only [hcomm, repeatedKeys_skeleton]

lemma workflowProblems_skeleton : workflowProblems (skeleton lines) = workflowProblems lines := by
  rw [workflowProblems, any_skeleton lines fun _ h => hasKey_eq_false h _, workflowProblems]

lemma workflowAdvice_skeleton (text : List Char) :
    workflowAdvice text (skeleton lines) = workflowAdvice text lines := by
  rw [workflowAdvice, any_skeleton lines fun _ h => hasKey_eq_false h _, workflowAdvice]

lemma declaredStages_skeleton : declaredStages (skeleton lines) = declaredStages lines := by
  unfold declaredStages
  rw [find?_skeleton lines topLevelKey_eq_false, blockChildren_skeleton, filter_skeleton]

lemma stageProblems_skeleton : stageProblems (skeleton lines) = stageProblems lines := by
  unfold stageProblems
  rw [declaredStages_skeleton]
  refine filterMap_skeleton lines fun l h => ?_
  rw [stageOf?_eq_none_of_not_isStructural h]

lemma stageAdvice_skeleton : stageAdvice (skeleton lines) = stageAdvice lines := by
  rw [stageAdvice, any_skeleton lines fun _ h => hasKeys_eq_false h .., stageAdvice]

lemma secretVariables_skeleton : secretVariables (skeleton lines) = secretVariables lines := by
  have hblocks : ["env", "variables"].flatMap (blockChildren (skeleton lines)) =
      skeleton (["env", "variables"].flatMap (blockChildren lines)) := by
    simp only [List.flatMap_cons, List.flatMap_nil, blockChildren_skeleton, skeleton_append]
    rfl
  unfold secretVariables
  rw [hblocks]
  refine filterMap_skeleton _ fun l h => ?_
  rw [value?_eq_none h]
  rfl

lemma countJobs_skeleton : countJobs (skeleton lines) = countJobs lines := by
  unfold countJobs
  rw [dropWhile_skeleton]
  cases hdrop : lines.dropWhile fun l => !(l.isTopLevel && l.hasKey "jobs") with
  | nil => exact countP_skeleton lines fun l h => by rw [isTopLevel_eq_false h]; rfl
  | cons header rest =>
    rw [skeleton_cons_of_pos (isStructural_of_dropWhile lines hdrop)]
    simp only [filter_skeleton]

lemma stats_skeleton : stats (skeleton lines) = stats lines := by
  have hsteps : ∀ l : Line, l.isStructural = false → (l.isStructural && opensStep l) = false :=
    fun l h => by rw [h, Bool.false_and]
  rw [stats, countJobs_skeleton, countP_skeleton lines hsteps,
    countP_skeleton lines fun _ h => hasKeys_eq_false h .., stats]

end Rules

/-! ## Lines that are changed in place -/

/-- A change of lines that leaves what they are in the structure as it is. -/
structure Faithful (g : Line → Line) : Prop where
  trimmed (l : Line) : (g l).trimmed = l.trimmed
  indent (l : Line) : (g l).indent = l.indent
  isStructural (l : Line) : (g l).isStructural = l.isStructural

namespace Faithful

variable {g : Line → Line} (h : Faithful g) (l : Line) (lines : List Line)
include h

lemma isTopLevel : (g l).isTopLevel = l.isTopLevel := by
  rw [Line.isTopLevel, h.isStructural, h.indent, Line.isTopLevel]

lemma keyAndRest? : (g l).keyAndRest? = l.keyAndRest? := by
  rw [Line.keyAndRest?, Line.body, h.isStructural, h.trimmed, Line.keyAndRest?, Line.body]

lemma key? : (g l).key? = l.key? := by rw [Line.key?, h.keyAndRest?, Line.key?]

lemma value? : (g l).value? = l.value? := by rw [Line.value?, h.keyAndRest?, Line.value?]

lemma hasKey (name : String) : (g l).hasKey name = l.hasKey name := by
  rw [Line.hasKey, h.key?, Line.hasKey]

lemma isBareKey : (g l).isBareKey = l.isBareKey := by
  rw [Line.isBareKey, h.value?, h.trimmed, Line.isBareKey]

lemma stageOf? : stageOf? (g l) = stageOf? l := by
  rw [Lint.stageOf?, h.hasKey, h.value?, Lint.stageOf?]

lemma hasTopLevelKey (name : String) :
    hasTopLevelKey (lines.map g) name = hasTopLevelKey lines name := by
  simp only [Lint.hasTopLevelKey, List.any_map, Function.comp_def, h.isTopLevel, h.hasKey]

lemma blockChildren (name : String) :
    blockChildren (lines.map g) name = (blockChildren lines name).map g := by
  unfold Lint.blockChildren
  simp only [List.dropWhile_map, Function.comp_def, h.isTopLevel, h.hasKey]
  cases lines.dropWhile fun l => !(l.isTopLevel && l.hasKey name) with
  | nil => rfl
  | cons header rest =>
    simp only [List.map_cons, List.takeWhile_map, Function.comp_def, h.isTopLevel]

lemma declaredStages : declaredStages (lines.map g) = declaredStages lines := by
  unfold Lint.declaredStages
  simp only [List.find?_map, Function.comp_def, h.isTopLevel, h.hasKey, h.blockChildren,
    List.filter_map, h.isStructural, List.filterMap_map, h.trimmed]
  cases lines.find? fun l => l.isTopLevel && l.hasKey "stages" with
  | none => rfl
  | some header => simp only [Option.map_some, h.value?]

lemma countJobs : countJobs (lines.map g) = countJobs lines := by
  unfold Lint.countJobs
  simp only [List.dropWhile_map, Function.comp_def, h.isTopLevel, h.hasKey]
  cases lines.dropWhile fun l => !(l.isTopLevel && l.hasKey "jobs") with
  | nil =>
    simp only [List.map_nil, List.countP_map, Function.comp_def, h.isTopLevel, h.isBareKey, h.key?]
  | cons header rest =>
    simp only [List.map_cons, List.filter_map, List.takeWhile_map, List.countP_map,
      Function.comp_def, h.isStructural, h.indent, h.isBareKey]

lemma opensStep : opensStep (g l) = opensStep l := by
  unfold Lint.opensStep
  rw [h.trimmed]

lemma stats : stats (lines.map g) = stats lines := by
  simp only [Lint.stats, h.countJobs, List.countP_map, Function.comp_def, h.isStructural,
    h.opensStep, h.hasKey]

end Faithful

/-! ## Reports of one structure -/

section Congr

variable {lines lines' : List Line} (text text' : List Char)

/-- A rule that reads the structure only. -/
lemma congr_of_skeleton {α : Type} (rule : List Line → α)
    (hrule : ∀ lines, rule (skeleton lines) = rule lines) (h : skeleton lines = skeleton lines') :
    rule lines = rule lines' := by
  rw [← hrule lines, h, hrule lines']

/-- Beside the problems of single lines, the structure tells all problems. -/
theorem problems_reportLines_congr
    (hlines : lines.flatMap lineProblems = lines'.flatMap lineProblems)
    (h : skeleton lines = skeleton lines') :
    (reportLines text lines).problems = (reportLines text' lines').problems := by
  have hkey : ∀ name, hasTopLevelKey lines name = hasTopLevelKey lines' name :=
    fun name => congr_of_skeleton (hasTopLevelKey · name) (hasTopLevelKey_skeleton · name) h
  have hworkflow : workflowProblems lines = workflowProblems lines' :=
    congr_of_skeleton workflowProblems workflowProblems_skeleton h
  have hstages : stageProblems lines = stageProblems lines' :=
    congr_of_skeleton stageProblems stageProblems_skeleton h
  simp only [reportLines, hlines, hkey, hworkflow, hstages]

/-- The structure tells the counts. -/
theorem stats_reportLines_congr (h : skeleton lines = skeleton lines') :
    (reportLines text lines).stats = (reportLines text' lines').stats :=
  congr_of_skeleton stats stats_skeleton h

end Congr

end Pipework.Lint
