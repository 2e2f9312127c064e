import Pipework.Pipeline.Consistency
import Pipework.Proofs.Lint.Entry

/-!
# Lines without findings

Neither rule of layout says anything about a line that is an entry, whatever its value is, nor about
one in a block, nor about an empty one.  `Clean` says so of a line, and that the line does not make
its document one with stages; the lemmas about `Holds Clean` are one for each way of laying out a
line.  What is clean throughout has no error apart from those of the rules for workflows.
-/

namespace Pipework

open Text Layout

/-- A job whose name, variables and axes are identifiers, and whose steps hold no tab. -/
structure Job.Tidy (job : Job) : Prop where
  name : Lint.isIdentifier job.name.toList = true
  envKeys : ∀ v ∈ job.envVars, Lint.isIdentifier v.key.toList = true
  axes : ∀ s ∈ job.strategy, ∀ axis ∈ s.axes, Lint.isIdentifier axis.1.toList = true
  contents : ∀ s ∈ job.steps, '\t' ∉ s.content.toList

/-- A job whose name, variables and axes are identifiers, whatever its steps hold. -/
structure Job.Identified (job : Job) : Prop where
  name : Lint.isIdentifier job.name.toList = true
  envKeys : ∀ v ∈ job.envVars, Lint.isIdentifier v.key.toList = true
  axes : ∀ s ∈ job.strategy, ∀ axis ∈ s.axes, Lint.isIdentifier axis.1.toList = true

lemma Job.Tidy.identified {job : Job} (h : job.Tidy) : job.Identified :=
  ⟨h.name, h.envKeys, h.axes⟩

lemma Job.Identified.effectiveAxes {job : Job} (h : job.Identified) {s : Strategy}
    (hs : s ∈ job.effectiveStrategy) : ∀ axis ∈ s.axes, Lint.isIdentifier axis.1.toList = true :=
  h.axes s (Option.filter_eq_some_iff.1 hs).1

namespace Lint

open Yaml (OneLine)

/-! ## Single lines -/

/-- The indentation of a line that was laid out is even. -/
lemma lineRisks_eq_nil {l : Layout.Line} (h : Begins l.text) (n : Nat) (inBlock : Bool) :
    lineRisks (scanned n l.shown inBlock) = [] := by
  have hindent : (scanned n l.shown inBlock).indent = l.level * levelWidth := leadingSpaces_shown h
  have heven : (l.level * levelWidth % 2 == 1) = false := by
    simp only [levelWidth, beq_eq_false_iff_ne]
    omega
  rw [lineRisks, hindent, heven, Bool.and_false]
  rfl

lemma tab_notMem_shown {l : Layout.Line} (h : OneLine l.text) : '\t' ∉ l.shown := by
  by_cases hne : l.text = []
  · rw [shown_of_nil hne]
    exact List.not_mem_nil
  · rw [shown_of_ne_nil hne, List.mem_append, not_or]
    exact ⟨by simp [Layout.indent], fun hmem => (h _ (mem_of_mem_dropReturn hmem)).1 rfl⟩

/-- A line without tabs that is in a block, or is well-formed, has no problem. -/
lemma lineProblems_eq_nil {l : Layout.Line} (h : OneLine l.text) (n : Nat) {inBlock : Bool}
    (hshape : inBlock = false → hasValidShape (trim l.shown) = true) :
    lineProblems (scanned n l.shown inBlock) = [] := by
  have htab := tab_notMem_shown h
  unfold lineProblems isLaidOut scanned
  cases inBlock with
  | true => simp [htab]
  | false => simp [htab, hshape rfl]

/-! ## Entries that were laid out -/

/-- A line that is an entry whose key is an identifier and whose value has no tab. -/
structure Keyed (name behind : List Char) (l : Layout.Line) : Prop where
  entry : IsEntry name behind l.text
  name : isIdentifier name = true
  behind : Behind behind
  oneLine : OneLine l.text

namespace Keyed

variable {level : Nat} {name key value behind : List Char} {l : Layout.Line}

/-- A key with lines below it. -/
lemma opens (hname : isIdentifier name = true) (h : KeyOf name key) :
    Keyed name [] (Layout.key level key) :=
  ⟨.plain h, hname, behind_nil, by simp [Layout.key, h.oneLine hname]⟩

/-- A key with its value. -/
lemma holds (hname : isIdentifier name = true) (h : KeyOf name key) (hvalue : OneLine value) :
    Keyed name (' ' :: value) (Layout.entry level key value) :=
  ⟨.plain h, hname, behind_space value, by simp [Layout.entry, h.oneLine hname, hvalue]⟩

/-- A key with its value behind the dash of a list item. -/
lemma item (hname : isIdentifier name = true) (h : KeyOf name key) (hvalue : OneLine value) :
    Keyed name (' ' :: value) (Layout.entry level ('-' :: ' ' :: key) value) :=
  ⟨.item h, hname, behind_space value, by simp [Layout.entry, h.oneLine hname, hvalue]⟩

lemma begins (h : Keyed name behind l) : Begins l.text := h.entry.begins h.name

lemma noFeed (h : Keyed name behind l) : '\n' ∉ l.text := fun hmem => (h.oneLine _ hmem).2 rfl

/-- An entry has no problem, in a block or not. -/
lemma lineProblems_eq_nil (h : Keyed name behind l) (n : Nat) (inBlock : Bool) :
    lineProblems (scanned n l.shown inBlock) = [] := by
  refine Lint.lineProblems_eq_nil h.oneLine n fun _ => ?_
  rw [trim_shown h.begins]
  exact h.entry.hasValidShape_trim h.name h.behind

/-- Outside of blocks, the key of the line is the one that was written. -/
lemma keyAndRest?_eq (h : Keyed name behind l) (n : Nat) :
    (scanned n l.shown false).keyAndRest? = some (name, Text.trimEnd behind) :=
  h.entry.keyAndRest?_eq h.name h.behind (trim_shown h.begins) rfl

end Keyed

/-- The characters of a secret's name are letters, digits and underscores. -/
lemma isWord_of_isSecretKey {key : String} (h : Consistency.isSecretKey key = true) :
    ∀ c ∈ key.toList, Yaml.isWord c = true := by
  rw [Consistency.isSecretKey, Bool.and_eq_true, List.all_eq_true] at h
  intro c hc
  have hpart := h.2 c hc
  simp only [Consistency.isKeyChar, Bool.or_eq_true, beq_iff_eq] at hpart
  rcases hpart with (hupper | hdigit) | rfl
  · have halpha := Yaml.isAlpha_iff.2 (.inl hupper)
    simp [Yaml.isWord, Char.isAlphanum, halpha]
  · simp [Yaml.isWord, Char.isAlphanum, hdigit]
  · rfl

/-- The name of a secret is an identifier. -/
lemma isIdentifier_of_isSecretKey {key : String} (h : Consistency.isSecretKey key = true) :
    isIdentifier key.toList = true := by
  have hword := isWord_of_isSecretKey h
  rw [Consistency.isSecretKey, Bool.and_eq_true] at h
  cases hkey : key.toList with
  | nil => simp [hkey] at h
  | cons c rest =>
    rw [hkey, List.head?_cons, Option.any_some, Bool.or_eq_true, beq_iff_eq] at h
    rw [isIdentifier, Bool.and_eq_true, Bool.or_eq_true, beq_iff_eq, List.all_eq_true]
    refine ⟨h.1.imp (fun hupper => Yaml.isAlpha_iff.2 (.inl hupper)) id, fun d hd => ?_⟩
    exact isIdentifierPart_iff.2 (.inl (hword d (hkey ▸ List.mem_cons_of_mem _ hd)))

/-! ## Clean lines -/

/-- The rules of layout say nothing about the line, and it does not list stages. -/
structure Clean (l : Line) : Prop where
  problems : lineProblems l = []
  risks : lineRisks l = []
  unstaged : l.isTopLevel = true → l.hasKey "stages" = false

/-- A line of a script. -/
lemma clean_scanned_true {l : Layout.Line} (h : OneLine l.text) (n : Nat) :
    Clean (scanned n l.shown true) where
  problems := lineProblems_eq_nil h n (by simp)
  risks := by simp [lineRisks, isLaidOut, scanned]
  unstaged := by simp [Line.isTopLevel, Line.isStructural, scanned]

namespace Holds

lemma clean_blank : Holds Clean [Layout.blank] := by
  refine .line (by decide) fun n inBlock => ?_
  constructor
  · cases inBlock <;> rfl
  · cases inBlock <;> rfl
  · cases inBlock <;> exact fun h => absurd h (by
      simp [scanned, Line.isTopLevel, Line.isStructural, Line.isBlank, Layout.Line.shown,
        Layout.blank, dropReturn, trim, trimStart, trimEnd, dropEndWhile])

/-- An entry, unless it is that of the stages. -/
lemma clean {name behind : List Char} {l : Layout.Line} (h : Keyed name behind l)
    (hstages : l.level = 0 → name ≠ "stages".toList) : Holds Clean [l] := by
  refine .line h.noFeed fun n inBlock => ?_
  refine ⟨h.lineProblems_eq_nil n inBlock, lineRisks_eq_nil h.begins n inBlock, ?_⟩
  intro htop
  have hindent : leadingSpaces l.shown = 0 := by
    simp only [Line.isTopLevel, scanned, Bool.and_eq_true, beq_iff_eq] at htop
    exact htop.2
  have hblock : inBlock = false := by
    simp only [Line.isTopLevel, Line.isStructural, scanned, Bool.and_eq_true,
      Bool.not_eq_true'] at htop
    exact htop.1.2
  have hlevel : l.level = 0 := by
    rw [leadingSpaces_shown h.begins] at hindent
    simp only [levelWidth] at hindent
    omega
  rw [hblock, Line.hasKey, Line.key?, h.keyAndRest?_eq n]
  simpa using hstages hlevel

end Holds

/-! ## Clean documents -/

lemma cause_of_mem_pinRisks {l : Line} {f : Finding Risk} (hf : f ∈ pinRisks l) :
    ∃ action major pin, f.cause = .deprecatedAction action major pin := by
  unfold pinRisks at hf
  split at hf
  · simp at hf
  · obtain ⟨⟨action, digits⟩, -, hfound⟩ := List.mem_filterMap.1 hf
    obtain ⟨risk, hrisk, rfl⟩ := Option.map_eq_some_iff.1 hfound
    unfold pinRisk at hrisk
    split at hrisk
    · simp only [Option.ite_none_right_eq_some, Option.some.injEq] at hrisk
      exact ⟨_, _, _, hrisk.2.symm⟩
    · cases hrisk

lemma cause_of_mem_repeatedKeys {seen : List (List Char)} {lines : List Line} {f : Finding Risk}
    (hf : f ∈ repeatedKeys seen lines) : ∃ key, f.cause = .duplicateTrigger key := by
  induction lines generalizing seen with
  | nil => simp [repeatedKeys] at hf
  | cons l rest ih =>
    unfold repeatedKeys at hf
    split at hf
    · split at hf
      · rcases List.mem_cons.1 hf with rfl | hf
        · exact ⟨_, rfl⟩
        · exact ih hf
      · exact ih hf
    · exact ih hf

lemma cause_of_mem_triggerRisks {lines : List Line} {f : Finding Risk}
    (hf : f ∈ triggerRisks lines) : ∃ key, f.cause = .duplicateTrigger key := by
  unfold triggerRisks at hf
  simp only at hf
  split at hf
  · exact cause_of_mem_repeatedKeys hf
  · simp at hf

lemma cause_of_mem_runtimeRisks {l : Line} {f : Finding Risk} (hf : f ∈ runtimeRisks l) :
    (∃ major, f.cause = .oldNode major) ∨ ∃ major minor, f.cause = .oldPython major minor := by
  unfold runtimeRisks at hf
  split at hf
  · simp at hf
  · obtain ⟨risk, hrisk, rfl⟩ := List.mem_map.1 hf
    rw [List.mem_append, Option.mem_toList, Option.mem_toList] at hrisk
    rcases hrisk with hnode | hpython
    · unfold nodeRisk at hnode
      split at hnode
      · obtain ⟨major, -, rfl⟩ := Option.map_eq_some_iff.1 hnode
        exact .inl ⟨major, rfl⟩
      · cases hnode
    · unfold pythonRisk at hpython
      split at hpython
      · split at hpython
        · simp only [Option.ite_none_right_eq_some, Option.some.injEq] at hpython
          exact .inr ⟨_, _, hpython.2.symm⟩
        · cases hpython
      · cases hpython

/-- Each of the other rules has causes of its own. -/
lemma mem_risks {text : List Char} {lines : List Line} {f : Finding Risk}
    (hf : f ∈ (reportLines text lines).risks) :
    f ∈ lines.flatMap lineRisks ∨ f ∈ echoRisks lines ∨
      (∃ action major pin, f.cause = .deprecatedAction action major pin) ∨
      (∃ key, f.cause = .duplicateTrigger key) ∨ (∃ major, f.cause = .oldNode major) ∨
      ∃ major minor, f.cause = .oldPython major minor := by
  simp only [reportLines, List.mem_append] at hf
  obtain ((hlayout | hworkflow) | hecho) | hruntime := hf
  · exact .inl hlayout
  · split at hworkflow
    · obtain hpin | htrigger := List.mem_append.1 hworkflow
      · obtain ⟨l, -, hl⟩ := List.mem_flatMap.1 hpin
        exact .inr (.inr (.inl (cause_of_mem_pinRisks hl)))
      · exact .inr (.inr (.inr (.inl (cause_of_mem_triggerRisks htrigger))))
    · simp at hworkflow
  · exact .inr (.inl hecho)
  · obtain ⟨l, -, hl⟩ := List.mem_flatMap.1 hruntime
    exact .inr (.inr (.inr (.inr (cause_of_mem_runtimeRisks hl))))

/-- Odd indentation is reported by the rule of layout only. -/
lemma mem_lineRisks_of_oddIndent {text : List Char} {lines : List Line} {f : Finding Risk} {n : Nat}
    (hf : f ∈ (reportLines text lines).risks) (hcause : f.cause = .oddIndent n) :
    f ∈ lines.flatMap lineRisks := by
  rcases mem_risks hf with hlayout | hecho | ⟨_, _, _, hother⟩ | ⟨_, hother⟩ | ⟨_, hother⟩ |
    ⟨_, _, hother⟩
  · exact hlayout
  · obtain ⟨l, -, rfl⟩ := List.mem_map.1 hecho
    cases hcause
  all_goals
    rw [hcause] at hother
    cases hother

/-- A document of clean lines that has jobs lints without errors. -/
theorem report_of_clean {text : List Char} (h : ∀ l ∈ scan text, Clean l)
    (hjobs : ∃ l ∈ scan text, l.hasKey "jobs" = true) :
    (report text).errors = [] ∧ ∀ f ∈ (report text).risks, ∀ n, f.cause ≠ .oddIndent n := by
  have hunstaged : hasTopLevelKey (scan text) "stages" = false := by
    rw [hasTopLevelKey, List.any_eq_false]
    intro l hl htop
    rw [Bool.and_eq_true] at htop
    exact absurd htop.2 (by simp [(h l hl).unstaged htop.1])
  have hworkflow : workflowProblems (scan text) = [] := by
    rw [workflowProblems, if_pos (List.any_eq_true.2 hjobs)]
  have hproblems : (scan text).flatMap lineProblems = [] :=
    List.flatMap_eq_nil_iff.2 fun l hl => (h l hl).problems
  have hrisks : (scan text).flatMap lineRisks = [] :=
    List.flatMap_eq_nil_iff.2 fun l hl => (h l hl).risks
  unfold report
  split
  · exact ⟨rfl, by simp⟩
  · constructor
    · rw [Report.errors, reportLines, hproblems, hworkflow, hunstaged]
      simp
    · intro f hf n hcause
      have hmem := mem_lineRisks_of_oddIndent hf hcause
      rw [hrisks] at hmem
      exact List.not_mem_nil hmem

end Lint

/-! ## An example -/

/-- A pipeline that reads like something else: a step is named like the mark of a block scalar, the
comment behind an action looks like one, and a variable and a line of a script look like a stage. -/
def Pipeline.deployment : Pipeline where
  triggers := { cron := "0 3 * * *", branches := ["main", "release: |"] }
  secrets := [{ key := "API_TOKEN" }]
  jobs := [{
    name := "build"
    steps := [
      { name := "Check out", kind := .uses, content := "actions/checkout@v4 # pinned: |" },
      { name := "\u00a0|", content := "  stage: production\n   - odd: yes" }]
    envVars := [{ key := "stage", value := "production" }]
    strategy := some { matrix := some (Matrix.empty.insert "os-version" ["24.04"]) } }]

lemma Pipeline.tidy_deployment : ∀ job ∈ deployment.jobs, job.Tidy := by
  intro job hjob
  obtain rfl := List.mem_singleton.1 hjob
  constructor
  case name => decide
  case envKeys => decide
  case axes =>
    intro s hs
    obtain rfl := Option.some.inj hs
    decide
  case contents => decide

end Pipework
