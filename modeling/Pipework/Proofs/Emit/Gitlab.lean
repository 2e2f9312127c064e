import Pipework.Emit.Gitlab
import Pipework.Proofs.Emit.Legible

/-!
# What a configuration says

The configuration written for a pipeline, read as a document, is the object `Gitlab.configuration`:
the variables and stages of the whole pipeline, and every job under its name.  Jobs stand beside
those two, so no job can have the name of one of them.  The keys of secrets have no quotes, so that
a secret whose name is a word of the format is no string there.
-/

namespace Pipework.Emit.Gitlab

open Layout Yaml

/-! ## The object of a configuration -/

/-- How a character stands between the quotes of a condition. -/
def quoted (c : Char) : List Char :=
  if c = '"' then ['\\', '"']
  else if c = '\\' then ['\\', '\\']
  else if c = '\n' then ['\\', 'n']
  else if c = '\t' then ['\\', 't']
  else if c = '\r' then ['\\', 'r']
  else [c]

/-- When a push runs a job: if it is one to the first of the branches. -/
def pushRule (branches : List String) : String :=
  match branches with
  | [] => "$CI_PIPELINE_SOURCE == \"push\""
  | branch :: _ => "$CI_PIPELINE_SOURCE == \"push\" && $CI_COMMIT_BRANCH == \"" ++
      String.ofList (branch.toList.flatMap quoted) ++ "\""

/-- When a job runs: on pushes, merge requests and tags. -/
def ruleTexts (t : Trigger) : List String :=
  (if t.push then [pushRule t.branches] else []) ++
    (if t.pullRequest then ["$CI_PIPELINE_SOURCE == \"merge_request_event\""] else []) ++
    (if t.tags then ["$CI_COMMIT_TAG"] else [])

/-- The lines of a shell step without the white space around them, but for those that have nothing
else.  Steps that refer to actions have none. -/
def stepScript (s : Step) : List (List Char) :=
  if s.kind = .run then ((s.content.toList.splitOn '\n').map trimmed).filter (· ≠ []) else []

/-- The lines of a job's script. -/
def script (job : Job) : List Typed :=
  (job.steps.flatMap stepScript).map fun line => .string (String.ofList line)

/-- A job under the conditions of its pipeline. -/
def jobFields (t : Trigger) (job : Job) : List (Typed × Typed) :=
  present [
    ("stage", some (.string job.name)),
    ("image", job.dockerImage.map .string),
    ("timeout", job.timeout.map fun n => .string (toString n.toNat ++ "m")),
    ("needs", if job.needs = [] then none else some (strings job.needs)),
    ("cache",
      if job.cache then some (.object [(.string "paths", strings ["node_modules/", ".cache/"])])
      else none),
    ("variables", object? job.variableFields),
    ("parallel",
      (object? job.axisFields).map fun axes => .object [(.string "matrix", .list [axes])]),
    ("rules", list? ((ruleTexts t).map fun text => .object [(.string "if", .string text)])),
    ("script", some ((list? (script job)).getD .null))]

/-- The secrets, each as a reference to itself. -/
def secretFields (p : Pipeline) : List (Typed × Typed) :=
  p.secrets.map fun s => (bareKey s.key, .string ("$" ++ s.key))

/-- A whole configuration. -/
def configuration (p : Pipeline) : List (Typed × Typed) :=
  present [
    ("variables", object? (secretFields p)),
    ("stages", some (strings (p.jobs.map (·.name))))] ++
    p.jobs.map fun job => (.string job.name, .object (jobFields p.triggers job))

variable {levels : Nat}

/-! ## The whole pipeline -/

lemma saysField?_secrets {p : Pipeline} (h : p.Legible) :
    SaysField? (levels + 3) 0 (secretLines p.secrets) "variables" (object? (secretFields p)) := by
  have hsecrets : SaysFields (levels + 2) 1
      (p.secrets.map fun s => entry 1 s.key.toList ('$' :: s.key.toList)) (secretFields p) := by
    refine .map fun s hs => ?_
    have hkey := h.secrets s hs
    have htext : ("$" ++ s.key).toList = '$' :: s.key.toList := String.toList_append
    have hvalue : SaysValue (levels + 2) 1 (' ' :: ("$" ++ s.key).toList) []
        (.string ("$" ++ s.key)) := by
      refine .plain ?_ ?_
      · rw [htext]
        exact .of_dollar_word hkey.isWord
      · rw [htext, resolve_dollar]
    rw [htext] at hvalue
    exact hkey.saysFields hvalue
  refine .objectOf fun hsome => ?_
  have hvariables : SaysFields (levels + 3) 0 _ [(.string "variables", .object (secretFields p))] :=
    .plain (by decide) (.object hsecrets (mt List.map_eq_nil_iff.1 hsome)
      (Typed.apart_map same_bareKey h.nodup_secrets))
  exact hvariables.append .blank

/-- The stages are the names of the jobs in their order. -/
lemma saysFields_stages {p : Pipeline} (h : p.Legible) :
    SaysFields (levels + 2) 0 (stageLines p.jobs)
      [(.string "stages", strings (p.jobs.map (·.name)))] := by
  have hstages : SaysFields (levels + 2) 0
      (if p.jobs.isEmpty then [entry 0 "stages".toList ['[', ']']]
      else opening 0 "stages" :: p.jobs.map fun job => item 1 (scalar job.name.toList))
      [(.string "stages", strings (p.jobs.map (·.name)))] := by
    split
    · rename_i hempty
      have hnone : SaysValue (levels + 2) 0 (' ' :: Text.flowList ([].map String.toList)) []
          (strings []) := .flowList (by simp)
      rw [List.isEmpty_iff.1 hempty]
      exact .plain (by decide) hnone
    · rename_i hne
      have hnames : SaysItems (levels + 1) 1
          (p.jobs.map fun job => item 1 (scalar job.name.toList))
          (p.jobs.map fun job => .string job.name) := by
        refine .map fun job hjob => ?_
        have hname : SaysItems (levels + 1) 1 [item 1 (scalar job.name.toList)] _ :=
          .string (h.jobs job hjob).name.isText
        rwa [String.ofList_toList] at hname
      rw [strings, List.map_map]
      exact .plain (by decide) (.list hnames (by simpa using hne))
  exact hstages.append .blank

/-! ## Jobs -/

lemma saysField?_timeout (timeout : Option UInt32) :
    SaysField? (levels + 1) 1
      (timeout.map fun n => entry 1 "timeout".toList (toString n.toNat ++ "m").toList).toList
      "timeout" (timeout.map fun n => .string (toString n.toNat ++ "m")) := by
  refine .option_line fun n _ => .plain (by decide) ?_
  have htext : (toString n.toNat ++ "m").toList = Nat.toDigits 10 n.toNat ++ ['m'] := by
    rw [String.toList_append, toList_toString]
    rfl
  refine .plain ?_ ?_
  · rw [htext]
    exact plain_toDigits_append _ (by simp [isWord])
  · rw [htext, resolve_toDigits_append]

lemma saysField?_cache (job : Job) :
    SaysField? (levels + 4) 1
      (if job.cache then
        [opening 1 "cache", opening 2 "paths"] ++ cachePaths.map fun p => item 3 p.toList
      else []) "cache"
      (if job.cache then some (.object [(.string "paths", strings ["node_modules/", ".cache/"])])
      else none) := by
  have hpaths : SaysItems (levels + 2) 3 (cachePaths.map fun p => item 3 p.toList)
      (["node_modules/", ".cache/"].map .string) :=
    (SaysItems.written (.plain (by decide : Plain "node_modules/".toList)) fun _ => rfl).append
      (SaysItems.written (.plain (by decide : Plain ".cache/".toList)) fun _ => rfl)
  have hlist : SaysFields (levels + 3) 2 _ [(.string "paths", strings _)] :=
    .plain (by decide) (.list hpaths (by decide))
  exact .guarded fun _ => .plain (by decide)
    (.object hlist (by simp) (List.pairwise_singleton _ _))

/-- The matrix is a list of one object, whose first axis stands behind the dash. -/
lemma saysFields_matrix {job : Job} {s : Strategy} (h : job.Legible) (hs : job.strategy = some s)
    (hne : job.axes ≠ []) :
    SaysFields (levels + 5) 1 (matrixLines s)
      [(.string "parallel", .object [(.string "matrix", .list [.object job.axisFields])])] := by
  have haxes : SaysFields (levels + 2) 4 _ _ := h.saysFields_axes 4
  have hapart := job.apart_axisFields
  rw [matrixLines, Strategy.hasMatrix, ← Job.axes_eq_of_strategy hs, if_pos (by simpa using hne)]
  rw [Job.axisFields] at haxes hapart ⊢
  cases hcons : job.axes with
  | nil => exact absurd hcons hne
  | cons axis rest =>
    rw [hcons] at haxes hapart
    have hitem := SaysItems.object (by simp) haxes (by simp) hapart
    have hlist : SaysFields (levels + 4) 2 _ [(.string "matrix", _)] :=
      .plain (by decide) (.list hitem (by simp))
    have hparallel : SaysFields (levels + 5) 1 _ [(.string "parallel", _)] :=
      .plain (by decide) (.object hlist (by simp) (List.pairwise_singleton _ _))
    simpa [item, opening, key, listEntry, entry, Function.comp_def] using hparallel

lemma saysField?_parallel {job : Job} (h : job.Legible) :
    SaysField? (levels + 5) 1 ((job.effectiveStrategy.map matrixLines).getD []) "parallel"
      ((object? job.axisFields).map fun axes =>
        .object [(.string "matrix", .list [axes])]) := by
  have hnone (hempty : job.axes = []) : object? job.axisFields = none := by
    rw [object?_eq_none_iff, Job.axisFields, hempty, List.map_nil]
  cases hstrategy : job.strategy with
  | none =>
    have hempty : job.axes = [] := by rw [Job.axes, hstrategy, Option.bind_none]
    rw [hnone hempty, Job.effectiveStrategy, hstrategy]
    exact .absent
  | some s =>
    have haxes := Job.axes_eq_of_strategy hstrategy
    rw [Job.effectiveStrategy, hstrategy, Option.filter_some]
    by_cases hempty : job.axes = []
    · have hlines : matrixLines s = [] := by simp [matrixLines, Strategy.hasMatrix, ← haxes, hempty]
      rw [hnone hempty]
      split
      · rw [Option.map_some, Option.getD_some, hlines]
        exact .absent
      · exact .absent
    · have hsome : object? job.axisFields = some (.object job.axisFields) := by
        simp [object?, Job.axisFields, hempty]
      have hwritten : (!s.isEmpty) = true := by
        simp [Strategy.isEmpty, Strategy.hasMatrix, ← haxes, hempty]
      rw [hsome, if_pos hwritten]
      exact saysFields_matrix h hstrategy hempty

/-! ## Rules -/

lemma doubleQuoted_eq (s : List Char) :
    Text.doubleQuoted s = '"' :: (s.flatMap quoted ++ ['"']) := by
  have hchar : Text.escapeChar = quoted := by
    funext c
    unfold Text.escapeChar quoted
    split <;> simp_all
  rw [Text.doubleQuoted, hchar]
  rfl

lemma pushCondition_eq (branches : List String) :
    pushCondition branches = (pushRule branches).toList := by
  cases branches with
  | nil => rfl
  | cons branch rest =>
    have hbefore : "$CI_PIPELINE_SOURCE == \"push\" && $CI_COMMIT_BRANCH == \"".toList =
        "$CI_PIPELINE_SOURCE == \"push\" && $CI_COMMIT_BRANCH == ".toList ++ ['"'] := by decide
    have hbehind : "\"".toList = ['"'] := rfl
    have hbranch : (String.ofList (branch.toList.flatMap quoted)).toList =
        branch.toList.flatMap quoted := String.toList_ofList
    show "$CI_PIPELINE_SOURCE == \"push\" && $CI_COMMIT_BRANCH == ".toList ++
        Text.doubleQuoted branch.toList = (_ ++ _ ++ _ : String).toList
    rw [String.toList_append, String.toList_append, hbranch, hbefore, hbehind, doubleQuoted_eq,
      List.append_assoc, List.append_assoc, List.singleton_append]

/-- The conditions that are written are those of the rules. -/
lemma conditions_eq (t : Trigger) : conditions t = (ruleTexts t).map String.toList := by
  have hone (c : Bool) (text : String) :
      (if c then [text] else []).map String.toList = if c then [text.toList] else [] := by
    cases c <;> rfl
  rw [conditions, ruleTexts, pushCondition_eq, List.map_append, List.map_append, hone, hone, hone]

lemma flat_ruleTexts {t : Trigger} (h : t.Legible) : ∀ text ∈ ruleTexts t, Flat text.toList := by
  have hpush : Flat (pushRule t.branches).toList := by
    rw [← pushCondition_eq]
    unfold pushCondition
    cases hbranches : t.branches with
    | nil => decide
    | cons branch rest =>
      have hbranch : IsText branch := h.branches branch (by simp [hbranches])
      exact flat_append.2 ⟨by decide, (written_doubleQuoted (Writable.quotable hbranch)).flat⟩
  intro text htext
  simp only [ruleTexts, List.mem_append] at htext
  rcases htext with (htext | htext) | htext
  · split at htext
    · rwa [List.mem_singleton.1 htext]
    · cases htext
  · split at htext
    · rw [List.mem_singleton.1 htext]
      decide
    · cases htext
  · split at htext
    · rw [List.mem_singleton.1 htext]
      decide
    · cases htext

/-- One rule for each condition. -/
lemma saysField?_rules {t : Trigger} (h : t.Legible) :
    SaysField? (levels + 4) 1
      (if (rules t).isEmpty then []
      else opening 1 "rules" :: (rules t).map fun rule => item 2 ("if: ".toList ++ rule)) "rules"
      (list? ((ruleTexts t).map fun text => .object [(.string "if", .string text)])) := by
  have hrules : SaysItems (levels + 3) 2
      ((ruleTexts t).map fun text => item 2 ("if: ".toList ++ Text.singleQuoted text.toList))
      ((ruleTexts t).map fun text => .object [(.string "if", .string text)]) := by
    refine .map fun text htext => ?_
    have hvalue : Typed.ofScalar? none false text.toList = some (.string text) := by
      rw [Typed.ofScalar?_of_text (by simp), String.ofList_toList]
    have hif : SaysFields (levels + 2) 3
        [⟨3, "if".toList ++ ':' :: ' ' :: Text.singleQuoted text.toList⟩]
        [(.string "if", .string text)] :=
      .plain (by decide) (.scalar (written_singleQuoted (flat_ruleTexts h text htext)) hvalue)
    exact .object (by simp) hif (by simp) (List.pairwise_singleton _ _)
  rw [rules, conditions_eq, List.map_map, List.isEmpty_map, List.map_map]
  refine .list (fun hnil => ?_) fun hne => ?_
  · rw [List.map_eq_nil_iff.1 hnil]
    rfl
  · have hsome : ruleTexts t ≠ [] := fun hnil => hne (by rw [hnil, List.map_nil])
    rw [if_neg (by simpa using hsome)]
    exact .plain (by decide) (.list hrules hne)

/-! ## Scripts -/

/-- The lines that are written of a step are those of its script. -/
lemma scriptOf_eq_stepScript {s : Step} (h : s.Legible) : scriptOf s = stepScript s := by
  obtain ⟨j, hj⟩ := h.exists_splitOn_eq
  have hblank : ((List.replicate j []).map trimmed).filter (· ≠ []) = [] := by
    simp [trimmed]
  have hkept : (fun line : List Char => !line.isEmpty) = fun line => decide (line ≠ []) := by
    funext line
    cases line <;> rfl
  rw [scriptOf, stepScript, hj, List.map_append, List.filter_append, hblank, List.append_nil,
    funext trim_eq_trimmed, hkept, Step.isRun]
  simp only [beq_iff_eq]

/-- The lines of all shell steps, one after the other. -/
lemma saysFields_script {job : Job} (h : job.Legible) :
    SaysFields (levels + 2) 1
      ([opening 1 "script"] ++ (job.steps.flatMap scriptOf).map fun line => item 2 (scalar line))
      [(.string "script", (list? (script job)).getD .null)] := by
  have hlines : SaysItems (levels + 1) 2
      ((job.steps.flatMap scriptOf).map fun line => item 2 (scalar line)) (script job) := by
    rw [script, ← List.flatMap_congr fun s hs => scriptOf_eq_stepScript (h.steps s hs)]
    refine .map fun line hline => .string ?_
    obtain ⟨s, hs, hmem⟩ := List.mem_flatMap.1 hline
    rw [scriptOf] at hmem
    split at hmem
    · obtain ⟨l, hl, rfl⟩ := List.mem_map.1 (List.mem_filter.1 hmem).1
      exact fun c hc => .inr ((h.steps s hs).flat_lines l hl c (Text.mem_of_mem_trim hc))
    · simp at hmem
  refine .plain (by decide) (.list_getD hlines fun hnone => ?_)
  rw [List.flatMap_congr fun s hs => scriptOf_eq_stepScript (h.steps s hs),
    List.map_eq_nil_iff.1 hnone]
  rfl

/-- A job stands under its name. -/
lemma saysFields_job {t : Trigger} (ht : t.Legible) {job : Job} (h : job.Legible) :
    SaysFields (levels + 6) 0 (jobLines (rules t) job)
      [(.string job.name, .object (jobFields t job))] := by
  have hstage : SaysField? (levels + 5) 1 [entry 1 "stage".toList (scalar job.name.toList)] "stage"
      (some (.string job.name)) := .plain (by decide) (.string h.name.isText)
  have himage : SaysField? (levels + 5) 1
      (job.dockerImage.map fun image => entry 1 "image".toList (scalar image.toList)).toList
      "image" (job.dockerImage.map .string) :=
    .option_line fun image himage => .plain (by decide) (.string (h.image image himage))
  have hneeds : SaysField? (levels + 5) 1
      (if job.needs.isEmpty then []
      else [listEntry 1 "needs".toList (job.needs.map String.toList)]) "needs"
      (if job.needs = [] then none else some (strings job.needs)) := by
    simp only [List.isEmpty_iff]
    exact .guarded_not fun _ => .plain (by decide) (.flowList h.needs)
  have hvariables : SaysField? (levels + 5) 1
      (if job.envVars.isEmpty then []
      else opening 1 "variables" :: job.envVars.map fun v =>
        entry 2 (scalar v.key.toList) (scalar v.value.toList)) "variables"
      (object? job.variableFields) :=
    .objectOf fun hvars => .plain (by decide) (h.saysValue_variables 1 hvars)
  have hfields : SaysFields (levels + 5) 1 _ (jobFields t job) :=
    .cons hstage (.cons himage (.cons (saysField?_timeout job.timeout) (.cons hneeds
      (.cons (saysField?_cache job) (.cons hvariables (.cons (saysField?_parallel h)
        (.cons (saysField?_rules ht) (.last (saysFields_script h)))))))))
  have hbody := hfields.append .blank
  rw [List.append_nil] at hbody
  have hjob := h.name.saysFields
    (.object hbody (by simp [jobFields, present_cons]) (apart_present (by simp)))
  simpa only [jobLines, key, List.append_assoc, List.cons_append, List.nil_append] using hjob

/-! ## Configurations -/

/-- The jobs stand apart from each other and from the two entries above them. -/
lemma apart_configuration {p : Pipeline} (h : p.Legible)
    (hnames : ∀ job ∈ p.jobs, job.name ≠ "stages" ∧ job.name ≠ "variables") :
    Typed.Apart (configuration p) := by
  refine Typed.apart_append.2 ⟨apart_present (by simp),
    Typed.apart_map Typed.same_string_of_ne h.nodup_jobs, fun entry hentry other hother => ?_⟩
  obtain ⟨job, hjob, rfl⟩ := List.mem_map.1 hother
  obtain ⟨hstages, hvariables⟩ := hnames job hjob
  obtain ⟨name, hname, hkey⟩ := exists_of_mem_present hentry
  rw [hkey]
  refine Typed.same_string_of_ne ?_
  rintro rfl
  simp [hstages, hvariables] at hname

/-- A configuration says all that its pipeline holds, but for steps that refer to actions, with the
names of its secrets as keys without quotes. -/
theorem read_gitlab {p : Pipeline} (h : p.Legible)
    (hnames : ∀ job ∈ p.jobs, job.name ≠ "stages" ∧ job.name ≠ "variables") :
    readTyped (gitlab p) = some (.object (configuration p)) := by
  have hjobs : SaysFields 6 0 (p.jobs.flatMap (jobLines (rules p.triggers)))
      (p.jobs.map fun job => (.string job.name, .object (jobFields p.triggers job))) := by
    rw [List.map_eq_flatMap]
    exact .flatMap fun job hjob => saysFields_job h.triggers (h.jobs job hjob)
  have hstages : SaysField? 6 0 (stageLines p.jobs) "stages"
      (some (strings (p.jobs.map (·.name)))) := saysFields_stages h
  have hhead := SaysFields.cons (saysField?_secrets h) (.last hstages)
  rw [gitlab, document]
  exact readTyped_write (hhead.append hjobs) (by simp [configuration, present_cons])
    (apart_configuration h hnames) (by decide)

theorem read_gitlab_nightly :
    Pipeline.nightly.Legible ∧ readTyped (gitlab Pipeline.nightly) =
      some (.object (configuration Pipeline.nightly)) :=
  ⟨Pipeline.legible_nightly, read_gitlab Pipeline.legible_nightly (by decide)⟩

end Pipework.Emit.Gitlab
