import Pipework.Proofs.Lint.Scan
import Pipework.Proofs.Lint.Structure
import Pipework.Proofs.Text.Edit

/-!
# Blank lines

No rule looks at the numbers of lines: findings only carry them (`reportLines_renumber`).  Nor does
any rule see a blank line, wherever it stands, nor does it end or begin a block scalar
(`reportLines_blank`, `nextParent_spaces`).  So a line of spaces that is put into a document changes
nothing but the numbers of the lines below it (`report_spaces`).
-/

namespace Pipework.Lint

open Text

/-! ## Other numbers -/

/-- The line with another number. -/
def Line.renumber (f : Nat → Nat) (l : Line) : Line := { l with number := f l.number }

/-- The finding on the line with another number. -/
def Finding.renumber {α : Type} (f : Nat → Nat) (x : Finding α) : Finding α :=
  { x with line := x.line.map f }

/-- The report on lines with other numbers. -/
def Report.renumber (f : Nat → Nat) (r : Report) : Report :=
  { r with
    problems := r.problems.map (Finding.renumber f)
    risks := r.risks.map (Finding.renumber f) }

section Renumber

variable (f : Nat → Nat) (l : Line) (lines : List Line)

lemma faithful_renumber : Faithful (Line.renumber f) := ⟨fun _ => rfl, fun _ => rfl, fun _ => rfl⟩

/-- A finding that is there or not. -/
lemma map_ite_finds {α : Type} (c : Bool) (cause : α) :
    (if c then [l.finds cause] else []).map (Finding.renumber f) =
      if c then [(l.renumber f).finds cause] else [] := by
  cases c <;> rfl

lemma lineProblems_renumber :
    lineProblems (l.renumber f) = (lineProblems l).map (Finding.renumber f) := by
  rw [lineProblems, lineProblems, List.map_append, map_ite_finds, map_ite_finds]
  rfl

lemma lineRisks_renumber : lineRisks (l.renumber f) = (lineRisks l).map (Finding.renumber f) := by
  rw [lineRisks, lineRisks, map_ite_finds]
  rfl

lemma pinRisks_renumber : pinRisks (l.renumber f) = (pinRisks l).map (Finding.renumber f) := by
  unfold pinRisks
  rw [apply_ite (List.map _), List.map_filterMap]
  simp only [Option.map_map]
  rfl

lemma runtimeRisks_renumber :
    runtimeRisks (l.renumber f) = (runtimeRisks l).map (Finding.renumber f) := by
  unfold runtimeRisks
  rw [apply_ite (List.map _), List.map_map]
  rfl

lemma repeatedKeys_renumber (seen : List (List Char)) :
    repeatedKeys seen (lines.map (Line.renumber f)) =
      (repeatedKeys seen lines).map (Finding.renumber f) := by
  induction lines generalizing seen with
  | nil => rfl
  | cons l rest ih =>
    rw [List.map_cons, repeatedKeys, (faithful_renumber f).key?, repeatedKeys]
    cases l.key? with
    | none => exact ih seen
    | some key =>
      simp only [ih]
      split <;> rfl

lemma triggerRisks_renumber :
    triggerRisks (lines.map (Line.renumber f)) =
      (triggerRisks lines).map (Finding.renumber f) := by
  have hstructural : Line.isStructural ∘ Line.renumber f = Line.isStructural := rfl
  unfold triggerRisks
  simp only [(faithful_renumber f).blockChildren, List.find?_map, hstructural]
  cases (blockChildren lines "on").find? Line.isStructural with
  | none => rfl
  | some first =>
    simp only [Option.map_some, List.filter_map]
    exact repeatedKeys_renumber f _ []

lemma stageProblems_renumber :
    stageProblems (lines.map (Line.renumber f)) =
      (stageProblems lines).map (Finding.renumber f) := by
  unfold stageProblems
  simp only [(faithful_renumber f).declaredStages, List.filterMap_map, List.map_filterMap]
  refine List.filterMap_congr fun l _ => ?_
  rw [Function.comp_apply, (faithful_renumber f).stageOf?]
  cases stageOf? l with
  | none => rfl
  | some stage =>
    simp only
    split <;> rfl

lemma secretVariables_renumber :
    secretVariables (lines.map (Line.renumber f)) = secretVariables lines := by
  have hblocks : ["env", "variables"].flatMap (blockChildren (lines.map (Line.renumber f))) =
      (["env", "variables"].flatMap (blockChildren lines)).map (Line.renumber f) := by
    simp [(faithful_renumber f).blockChildren]
  unfold secretVariables
  rw [hblocks, List.filterMap_map]
  rfl

lemma echoRisks_renumber :
    echoRisks (lines.map (Line.renumber f)) = (echoRisks lines).map (Finding.renumber f) := by
  unfold echoRisks
  simp only [secretVariables_renumber, List.filter_map, List.map_map]
  rfl

lemma any_renumber {p : Line → Bool} (hp : ∀ l, p (l.renumber f) = p l) :
    (lines.map (Line.renumber f)).any p = lines.any p := by
  rw [List.any_map]
  congr 1
  exact funext hp

/-- The rules do not look at the numbers of lines. -/
theorem reportLines_renumber (text : List Char) :
    reportLines text (lines.map (Line.renumber f)) = (reportLines text lines).renumber f := by
  have hkey := (faithful_renumber f).hasTopLevelKey lines
  have hstats := (faithful_renumber f).stats lines
  have hworkflow : workflowProblems (lines.map (Line.renumber f)) =
      (workflowProblems lines).map (Finding.renumber f) := by
    rw [workflowProblems, any_renumber f lines fun _ => rfl, workflowProblems]
    split <;> rfl
  have hadvice : workflowAdvice text (lines.map (Line.renumber f)) = workflowAdvice text lines := by
    rw [workflowAdvice, any_renumber f lines fun _ => rfl, workflowAdvice]
  have hstages : stageAdvice (lines.map (Line.renumber f)) = stageAdvice lines := by
    rw [stageAdvice, any_renumber f lines fun _ => rfl, stageAdvice]
  simp only [reportLines, Report.renumber, hkey, hstats, hworkflow, hadvice, hstages,
    stageProblems_renumber, triggerRisks_renumber, echoRisks_renumber, List.flatMap_map,
    lineProblems_renumber, lineRisks_renumber, pinRisks_renumber, runtimeRisks_renumber,
    List.map_append, List.map_flatMap, apply_ite (List.map _), List.map_nil]

end Renumber

/-! ## Lines that no rule sees -/

section Blank

variable {b : Line} (hb : b.trimmed = [])
include hb

lemma isStructural_blank : b.isStructural = false := by
  rw [Line.isStructural, Line.isBlank, hb]
  rfl

lemma lineProblems_blank (htab : '\t' ∉ b.raw) : lineProblems b = [] := by
  simp [lineProblems, isLaidOut, Line.isBlank, hb, htab]

lemma lineRisks_blank : lineRisks b = [] := by
  simp [lineRisks, isLaidOut, Line.isBlank, hb]

lemma pinRisks_blank : pinRisks b = [] := by
  simp [pinRisks, hb, allMatches]

lemma runtimeRisks_blank : runtimeRisks b = [] := by
  have hnode : nodeRisk [] = none := rfl
  have hpython : pythonRisk [] = none := rfl
  simp [runtimeRisks, hb, hnode, hpython]

lemma leaks_blank (secrets : List (List Char)) : leaks secrets b = false := by
  have hecho : mentionsEcho [] = false := rfl
  rw [leaks, hb, hecho, Bool.and_false, Bool.false_and]

/-- No rule sees a blank line. -/
theorem reportLines_blank (htab : '\t' ∉ b.raw) (text : List Char) (front back : List Line) :
    reportLines text (front ++ b :: back) = reportLines text (front ++ back) := by
  have hskeleton : skeleton (front ++ b :: back) = skeleton (front ++ back) := by
    rw [skeleton_append, skeleton_cons_of_neg (isStructural_blank hb), skeleton_append]
  have hflat : ∀ {α : Type} {rule : Line → List α}, rule b = [] →
      (front ++ b :: back).flatMap rule = (front ++ back).flatMap rule := by
    intro α rule hrule
    rw [List.flatMap_append, List.flatMap_cons, hrule, List.nil_append, List.flatMap_append]
  have hkey : ∀ name, hasTopLevelKey (front ++ b :: back) name =
      hasTopLevelKey (front ++ back) name := fun name =>
    congr_of_skeleton (hasTopLevelKey · name) (hasTopLevelKey_skeleton · name) hskeleton
  have hecho : echoRisks (front ++ b :: back) = echoRisks (front ++ back) := by
    rw [echoRisks, echoRisks, congr_of_skeleton _ secretVariables_skeleton hskeleton,
      List.filter_append, List.filter_cons_of_neg (by simp [leaks_blank hb]), List.filter_append]
  simp only [reportLines, hkey, hecho, hflat (lineProblems_blank hb htab),
    hflat (lineRisks_blank hb), hflat (pinRisks_blank hb), hflat (runtimeRisks_blank hb),
    congr_of_skeleton _ workflowProblems_skeleton hskeleton,
    congr_of_skeleton _ stageProblems_skeleton hskeleton,
    congr_of_skeleton _ triggerRisks_skeleton hskeleton,
    congr_of_skeleton _ (workflowAdvice_skeleton · text) hskeleton,
    congr_of_skeleton _ stageAdvice_skeleton hskeleton,
    congr_of_skeleton _ stats_skeleton hskeleton]

end Blank

/-! ## Lines of spaces in a document -/

/-- The number that a line has after a line was put in behind the first `i` lines. -/
def numberBelow (i n : Nat) : Nat := if i < n then n + 1 else n

/-- A line of spaces. -/
abbrev spaces (k : Nat) : List Char := List.replicate k ' '

lemma isBlank_spaces (k : Nat) : isBlank (spaces k) = true := by
  rw [isBlank, List.all_eq_true]
  intro c hc
  rw [List.eq_of_mem_replicate hc]
  decide

lemma trim_spaces (k : Nat) : trim (spaces k) = [] := trim_eq_nil_of_isBlank (isBlank_spaces k)

/-- A line of spaces neither opens a block scalar nor ends one. -/
lemma nextParent_spaces (parent : Option Nat) (k : Nat) :
    nextParent parent (spaces k) = parent := by
  rw [nextParent, inBody, trim_spaces]
  cases parent <;> rfl

lemma map_renumber_scanFrom (n : Nat) (parent : Option Nat) (raws : List (List Char)) :
    (scanFrom n parent raws).map (Line.renumber (· + 1)) = scanFrom (n + 1) parent raws := by
  induction raws generalizing n parent with
  | nil => rfl
  | cons raw rest ih =>
    rw [scanFrom_cons, List.map_cons, ih, scanFrom_cons]
    rfl

lemma number_mem_scanFrom {n : Nat} {parent : Option Nat} {raws : List (List Char)} {l : Line}
    (h : l ∈ scanFrom n parent raws) : n ≤ l.number ∧ l.number < n + raws.length := by
  obtain ⟨i, raw, inBlock, hraw, rfl⟩ := exists_of_mem_scanFrom h
  obtain ⟨hi, -⟩ := List.getElem?_eq_some_iff.1 hraw
  exact ⟨Nat.le_add_right .., Nat.add_lt_add_left hi n⟩

lemma map_renumber_congr {f g : Nat → Nat} {lines : List Line}
    (h : ∀ l ∈ lines, f l.number = g l.number) :
    lines.map (Line.renumber f) = lines.map (Line.renumber g) := by
  refine List.map_congr_left fun l hl => ?_
  rw [Line.renumber, h l hl, Line.renumber]

section Document

variable {earlier later : List (List Char)}

/-- The lines of the document with the line of spaces are those without it, below it under their new
numbers, and the line of spaces itself. -/
lemma exists_scan_spaces (hfeed : ∀ line ∈ earlier ++ later, '\n' ∉ line) (k : Nat) :
    ∃ front back inBlock, scan (ended (earlier ++ spaces k :: later)) =
        front ++ scanned (1 + earlier.length) (spaces k) inBlock :: back ∧
      (scan (ended (earlier ++ later))).map (Line.renumber (numberBelow earlier.length)) =
        front ++ back := by
  have hfeed' : ∀ line ∈ earlier ++ spaces k :: later, '\n' ∉ line := by
    simp only [List.forall_mem_append, List.forall_mem_cons] at hfeed ⊢
    exact ⟨hfeed.1, by simp, hfeed.2⟩
  have hspaces : dropReturn (spaces k) = spaces k := by
    rw [dropReturn, if_neg]
    intro h
    exact absurd (List.eq_of_mem_replicate (List.mem_of_getLast? h)) (by decide)
  have hlength : (earlier.map dropReturn).length = earlier.length := List.length_map ..
  refine ⟨scanFrom 1 none (earlier.map dropReturn), scanFrom (1 + earlier.length + 1)
    ((earlier.map dropReturn).foldl nextParent none) (later.map dropReturn),
    inBody ((earlier.map dropReturn).foldl nextParent none) (spaces k), ?_, ?_⟩
  · rw [scan, ended, lines_flatMap hfeed', List.map_append, List.map_cons, hspaces, scanFrom_append,
      scanFrom_cons, nextParent_spaces, hlength]
  · rw [scan, ended, lines_flatMap hfeed, List.map_append, scanFrom_append, List.map_append,
      hlength, ← map_renumber_scanFrom (1 + earlier.length)]
    congr 1
    · refine (map_renumber_congr (g := id) fun l hl => ?_).trans (List.map_id _)
      have hl := (number_mem_scanFrom hl).2
      exact if_neg (by omega)
    · refine map_renumber_congr fun l hl => ?_
      have hl := (number_mem_scanFrom hl).1
      exact if_pos (by omega)

/-- What occurs in the document with the line of spaces occurs in the one without it. -/
lemma contains_spaces {sep : List Char} (hfeed : '\n' ∉ sep) (hsep : sep.any (· ≠ ' '))
    (earlier later : List (List Char)) (k : Nat) :
    contains sep (ended (earlier ++ spaces k :: later)) =
      contains sep (ended (earlier ++ later)) := by
  obtain ⟨c, hc, hspace⟩ := List.any_eq_true.1 hsep
  have hnone : contains sep (spaces k) = false := by
    rw [← Bool.not_eq_true, contains_iff]
    exact fun h => of_decide_eq_true hspace (List.eq_of_mem_replicate (h.subset hc))
  have hne : sep ≠ [] := List.ne_nil_of_mem hc
  rw [contains_ended hne hfeed, contains_ended hne hfeed, List.any_append, List.any_cons, hnone,
    Bool.false_or, List.any_append]

lemma map_toLower_ended (written : List (List Char)) :
    (ended written).map Char.toLower = ended (written.map (·.map Char.toLower)) := by
  rw [ended, List.map_flatMap, ended, List.flatMap_map]
  refine List.flatMap_congr fun line _ => ?_
  rw [List.map_append]
  rfl

lemma isBlank_ended_spaces (earlier later : List (List Char)) (k : Nat) :
    isBlank (ended (earlier ++ spaces k :: later)) = isBlank (ended (earlier ++ later)) := by
  have hspaces := isBlank_spaces k
  rw [ended_append, ended_append, ended_cons]
  simp only [isBlank, List.all_append, List.all_cons] at hspaces ⊢
  rw [hspaces]
  rfl

/-- The rules that read the text as a whole do not see the line of spaces. -/
lemma reportLines_spaces (earlier later : List (List Char)) (k : Nat) (lines : List Line) :
    reportLines (ended (earlier ++ spaces k :: later)) lines =
      reportLines (ended (earlier ++ later)) lines := by
  have hlower : (spaces k).map Char.toLower = spaces k := List.map_replicate
  have hcache : contains "cache".toList ((ended (earlier ++ spaces k :: later)).map Char.toLower) =
      contains "cache".toList ((ended (earlier ++ later)).map Char.toLower) := by
    rw [map_toLower_ended, map_toLower_ended, List.map_append, List.map_cons, hlower,
      contains_spaces (by decide) (by decide), List.map_append]
  have hmatrix : matrixAdvice (ended (earlier ++ spaces k :: later)) =
      matrixAdvice (ended (earlier ++ later)) := by
    rw [matrixAdvice, contains_spaces (by decide) (by decide),
      contains_spaces (by decide) (by decide), contains_spaces (by decide) (by decide),
      matrixAdvice]
  simp only [reportLines, workflowAdvice, hcache, hmatrix]

/-- A line of spaces changes nothing but the numbers of the lines below it. -/
lemma report_spaces_eq (hfeed : ∀ line ∈ earlier ++ later, '\n' ∉ line) (k : Nat) :
    report (ended (earlier ++ spaces k :: later)) =
      (report (ended (earlier ++ later))).renumber (numberBelow earlier.length) := by
  obtain ⟨front, back, inBlock, hscan, hscan'⟩ := exists_scan_spaces hfeed k
  have htab : '\t' ∉ (scanned (1 + earlier.length) (spaces k) inBlock).raw :=
    fun h => absurd (List.eq_of_mem_replicate h) (by decide)
  rw [report, report, isBlank_ended_spaces]
  split
  · rfl
  · rw [← reportLines_renumber, hscan, reportLines_blank (trim_spaces k) htab, hscan']
    exact reportLines_spaces earlier later k _

/-- A line of spaces changes nothing but the numbers of the lines below it, wherever it is put into
a document of lines that each have a line feed behind them. -/
theorem report_spaces (hfeed : ∀ line ∈ earlier ++ later, '\n' ∉ line) (k : Nat) :
    let before := report (ended (earlier ++ later))
    let after := report (ended (earlier ++ spaces k :: later))
    let number := numberBelow earlier.length
    after.isValid = before.isValid ∧ after.stats = before.stats ∧
      after.suggestions = before.suggestions ∧
      after.errors = before.problems.map (fun f => (f.renumber number).text Problem.message) ∧
      after.warnings = before.risks.map fun f => (f.renumber number).text Risk.message := by
  intro before after number
  have hafter : after = before.renumber number := report_spaces_eq hfeed k
  rw [hafter]
  refine ⟨?_, rfl, rfl, ?_, ?_⟩
  · exact List.isEmpty_map
  · exact List.map_map
  · exact List.map_map

end Document

/-- A job whose script is not finished yet. -/
def scriptBegun : List (List Char) :=
  ["on:", "  push:", "jobs:", "  build:", "    steps:", "      - run: |", "          make"].map
    String.toList

/-- The end of the script, with a tab in it, and a trigger that is too far right. -/
def scriptEnded : List (List Char) :=
  ["          tab:\there", "   push:"].map String.toList

/-- A line of three spaces in the script: the tab and the odd indentation are reported one line
further down. -/
theorem report_spaces_script :
    (∀ line ∈ scriptBegun ++ scriptEnded, '\n' ∉ line) ∧
      (report (ended (scriptBegun ++ scriptEnded))).problems = [⟨some 8, .tab⟩] ∧
      (report (ended (scriptBegun ++ spaces 3 :: scriptEnded))).errors =
        [(⟨some 9, .tab⟩ : Finding Problem)].map (Finding.text Problem.message) := by
  have hfeed : ∀ line ∈ scriptBegun ++ scriptEnded, '\n' ∉ line := by decide
  have hproblems : (report (ended (scriptBegun ++ scriptEnded))).problems = [⟨some 8, .tab⟩] := by
    decide +kernel
  obtain ⟨-, -, -, herrors, -⟩ := report_spaces hfeed 3
  refine ⟨hfeed, hproblems, herrors.trans ?_⟩
  rw [hproblems]
  rfl

end Pipework.Lint
