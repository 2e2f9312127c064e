import Pipework.Emit.Gitlab
import Pipework.Proofs.Lint.Stages
import Pipework.Proofs.Pipeline.Consistency
import Pipework.Proofs.Text.Parts

/-!
# What the linter makes of GitLab pipelines

The linter takes every line whose key reads as `stage` for the stage of a job, wherever the line
stands.  In the pipeline that is written for some jobs these are the stages of the jobs, all of
which are declared, and whatever lines of variables, matrices and scripts look alike.  Those that
name no job are the only errors (`lint_gitlab`).
-/

namespace Pipework.Emit.Gitlab

open Layout Lint Yaml

/-- The variables of a job. -/
def variableLines (job : Job) : List Layout.Line :=
  job.envVars.map fun v => entry 2 (scalar v.key.toList) (scalar v.value.toList)

/-- The script of a job. -/
def scriptLines (job : Job) : List Layout.Line :=
  (job.steps.flatMap scriptOf).map fun line => item 2 (scalar line)

/-- The lines of a job with keys and texts of the user's. -/
def looseLines (job : Job) : List Layout.Line :=
  variableLines job ++ (job.effectiveStrategy.map matrixLines).getD [] ++ scriptLines job

/-- The stages that these lines seem to name, without those that are jobs. -/
def undeclaredStages (p : Pipeline) : List (List Char) :=
  (p.jobs.flatMap fun job => stagesOf (looseLines job)).filter fun stage =>
    !p.jobs.any fun job => job.name.toList == stage

/-! ## Secrets -/

lemma isSecretKey_of_violations {p : Pipeline} (h : p.violations = []) :
    ∀ s ∈ p.secrets, Consistency.isSecretKey s.key = true := by
  rw [Pipeline.violations, List.append_eq_nil_iff, List.append_eq_nil_iff] at h
  intro s hs
  exact Consistency.isSecretKey_iff.2 ((Consistency.ofSecrets_eq_nil_iff.1 h.1.2).1 s hs)

/-- A secret's name is in upper case. -/
lemma ne_stage_of_isSecretKey {key : String} (h : Consistency.isSecretKey key = true) :
    key.toList ≠ "stage".toList := by
  intro heq
  rw [Consistency.isSecretKey, heq] at h
  exact absurd h (by decide)

lemma reads_secretLines {secrets : List Secret}
    (h : ∀ s ∈ secrets, Consistency.isSecretKey s.key = true) :
    Reads 0 (if secrets.isEmpty then [] else ["variables".toList]) [] (secretLines secrets) := by
  have hkeyed : ∀ s ∈ secrets,
      Keyed s.key.toList (' ' :: '$' :: s.key.toList)
        (entry 1 s.key.toList ('$' :: s.key.toList)) := by
    intro s hs
    have hname := isIdentifier_of_isSecretKey (h s hs)
    exact .holds hname .plain (OneLine.cons_iff.2 ⟨by decide, KeyOf.plain.oneLine hname⟩)
  have hentries : Reads 1 [] [] (secrets.map fun s => entry 1 s.key.toList ('$' :: s.key.toList)) :=
    .silent (by decide) (List.forall_mem_map.2 fun s hs =>
      ⟨(hkeyed s hs).fits, (hkeyed s hs).stageOf?_eq_none (ne_stage_of_isSecretKey (h s hs))⟩)
  unfold secretLines
  split
  · exact .nil
  · exact (Reads.opening (.opens (by decide) .plain) (by decide) hentries).append_blank

/-! ## Stages -/

/-- A list item that is a string without white space around it is without fault. -/
lemma fits_item {level : Nat} {s : List Char} (htrim : Text.trim s = s) :
    Fits level (item level (scalar s)) where
  level_eq := rfl
  begins := ⟨'-', _, rfl, by decide⟩
  noFeed := by
    have hscalar := OneLine.scalar s
    intro hmem
    simp only [item, List.mem_cons] at hmem
    rcases hmem with hdash | hspace | hmem
    · exact absurd hdash (by decide)
    · exact absurd hspace (by decide)
    · exact (hscalar _ hmem).2 rfl
  sound := by
    have hbegins : Begins (item level (scalar s)).text := ⟨'-', _, rfl, by decide⟩
    refine lineProblems_eq_nil ?_ 0 fun _ => ?_
    · simp [item, OneLine.scalar s]
    · rw [trim_shown hbegins]
      exact hasValidShape_item_scalar htrim

lemma trim_identifier {name : List Char} (h : isIdentifier name = true) : Text.trim name = name :=
  Text.trim_eq_self fun c hc => (inert_of_isIdentifier h c hc).2.1

lemma standing_item_trimmed {level : Nat} {name : List Char} (h : isIdentifier name = true) :
    (standing (item level (scalar name))).trimmed = '-' :: ' ' :: scalar name := by
  have hkey := keyOf_scalar h
  have hspace : ∀ c ∈ scalar name, Text.isSpace c = false := fun c hc => (hkey.inert h c hc).1
  have hshown : (standing (item level (scalar name))).trimmed =
      Text.trim ('-' :: ' ' :: scalar name) := trim_shown ⟨'-', _, rfl, by decide⟩
  obtain ⟨c, rest, heq, -⟩ := hkey.exists_cons h
  rw [heq] at hspace ⊢
  have htrim := Text.trim_eq_self hspace
  have hc := hspace c List.mem_cons_self
  rw [Text.trim_cons hc] at htrim
  rw [heq] at hshown
  rw [hshown, trim_dash hc, htrim]

/-- A name in a list is no key. -/
lemma stageOf?_item_name {level : Nat} {name : List Char} (h : isIdentifier name = true) :
    stageOf? (standing (item level (scalar name))) = none := by
  have hcolon : ':' ∉ scalar name := fun hmem => ((keyOf_scalar h).inert h _ hmem).2.1 rfl
  have hbody : (standing (item level (scalar name))).body = scalar name := by
    rw [Line.body, standing_item_trimmed h]
    simp [List.isPrefixOf?]
  have hkey : (standing (item level (scalar name))).keyAndRest? = none := by
    rw [Line.keyAndRest?, hbody, Text.cut?_eq_none hcolon]
    simp
  rw [stageOf?, Line.hasKey, Line.key?, hkey]
  rfl

lemma reads_stageLines {jobs : List Job} (h : ∀ job ∈ jobs, isIdentifier job.name.toList = true) :
    Reads 0 ["stages".toList] [] (stageLines jobs) := by
  have hitems : Reads 1 [] [] (jobs.map fun j => item 1 (scalar j.name.toList)) :=
    .silent (by decide) (List.forall_mem_map.2 fun job hjob =>
      ⟨fits_item (trim_identifier (h job hjob)), stageOf?_item_name (h job hjob)⟩)
  unfold stageLines
  refine .append_blank (.ite (fun _ => ?_) fun _ => ?_)
  · have hkeyed : Keyed "stages".toList _ (entry 0 "stages".toList ['[', ']']) :=
      .holds (by decide) .plain (by decide)
    exact ⟨.line hkeyed.begins hkeyed.noFeed, by decide, by decide, by decide⟩
  · exact .opening (.opens (by decide) .plain) (by decide) hitems

/-! ## Jobs -/

lemma oneLine_conditions (t : Trigger) : ∀ c ∈ conditions t, OneLine c := by
  intro c hc
  simp only [conditions, List.mem_append] at hc
  rcases hc with (hpush | hrequest) | htags
  · split at hpush
    · obtain rfl := List.mem_singleton.1 hpush
      unfold pushCondition
      split
      · decide
      · exact OneLine.append_iff.2 ⟨by decide, oneLine_doubleQuoted _⟩
    · simp at hpush
  · split at hrequest
    · obtain rfl := List.mem_singleton.1 hrequest
      decide
    · simp at hrequest
  · split at htags
    · obtain rfl := List.mem_singleton.1 htags
      decide
    · simp at htags

lemma reads_rules (t : Trigger) :
    Reads 1 [] [] (if (rules t).isEmpty then []
      else opening 1 "rules" :: (rules t).map fun rule => item 2 ("if: ".toList ++ rule)) := by
  refine .ite (fun _ => .nil) fun _ => ?_
  have hopening : Keyed "rules".toList [] (opening 1 "rules") := .opens (by decide) .plain
  have hsilent : 0 < 2 := by decide
  refine .opening hopening (by decide) (.silent hsilent ?_)
  refine List.forall_mem_map.2 (List.forall_mem_map.2 fun c hc => ?_)
  have hkeyed : Keyed "if".toList (' ' :: Text.singleQuoted c)
      (entry 2 ('-' :: ' ' :: "if".toList) (Text.singleQuoted c)) :=
    .item (by decide) .plain (oneLine_singleQuoted (oneLine_conditions t c hc))
  exact ⟨hkeyed.fits, hkeyed.stageOf?_eq_none (by decide)⟩

lemma reads_cache (job : Job) :
    Reads 1 [] [] (if job.cache then
      [opening 1 "cache", opening 2 "paths"] ++ cachePaths.map fun p => item 3 p.toList
    else []) := by
  have hitems : Reads 3 [] [] (cachePaths.map fun p => item 3 p.toList) := by
    refine .silent (by decide) (List.forall_mem_map.2 fun path hpath => ?_)
    have hsound : ∀ path ∈ cachePaths, '\n' ∉ (item 3 path.toList).text ∧
        lineProblems (standing (item 3 path.toList)) = [] ∧
        stageOf? (standing (item 3 path.toList)) = none := by decide
    obtain ⟨hfeed, hproblems, hstage⟩ := hsound path hpath
    exact ⟨⟨rfl, ⟨'-', _, rfl, by decide⟩, hfeed, hproblems⟩, hstage⟩
  have hpaths : Reads 2 [] [] (opening 2 "paths" :: cachePaths.map fun p => item 3 p.toList) :=
    .opening (.opens (by decide) .plain) (by decide) hitems
  exact .ite (fun _ => .opening (.opens (by decide) .plain) (by decide) hpaths) fun _ => .nil

lemma reads_variables {job : Job} (h : job.Identified) :
    Reads 1 [] (stagesOf (variableLines job))
      (if job.envVars.isEmpty then [] else opening 1 "variables" :: variableLines job) := by
  split
  case isTrue hempty =>
    rw [variableLines, List.isEmpty_iff.1 hempty]
    exact .nil
  case isFalse =>
    have hlines : Reads 2 [] (stagesOf (variableLines job)) (variableLines job) := by
      refine .lines (by decide) (List.forall_mem_map.2 fun v hv => ?_)
      have hkeyed : Keyed v.key.toList _ (entry 2 (scalar v.key.toList) (scalar v.value.toList)) :=
        .holds (h.envKeys v hv) (keyOf_scalar (h.envKeys v hv)) (.scalar _)
      exact hkeyed.fits
    exact .opening (.opens (by decide) .plain) (by decide) hlines

/-- The axes of a matrix: the first is a list item, and the others belong to it. -/
lemma reads_axes {axes : List (String × List String)}
    (h : ∀ axis ∈ axes, isIdentifier axis.1.toList = true) (hne : axes ≠ []) :
    ∃ stages, Reads 3 [] stages
      (((axes.map fun (axis, values) =>
          scalar axis.toList ++ ':' :: ' ' :: Text.flowList (values.map String.toList)).take 1).map
            (item 3) ++
        ((axes.map fun (axis, values) =>
          scalar axis.toList ++ ':' :: ' ' :: Text.flowList (values.map String.toList)).drop 1).map
            (⟨4, ·⟩)) := by
  obtain ⟨⟨name, values⟩, rest, rfl⟩ := List.exists_cons_of_ne_nil hne
  have hfits : ∀ l ∈ rest.map (fun axis => listEntry 4 (scalar axis.1.toList)
      (axis.2.map String.toList)), Fits 4 l := by
    refine List.forall_mem_map.2 fun axis haxis => ?_
    have hname := h axis (List.mem_cons_of_mem _ haxis)
    have hkeyed : Keyed axis.1.toList _
        (listEntry 4 (scalar axis.1.toList) (axis.2.map String.toList)) :=
      .holds hname (keyOf_scalar hname) (.flowList _)
    exact hkeyed.fits
  have hname := h (name, values) List.mem_cons_self
  have hkeyed : Keyed name.toList _ (entry 3 ('-' :: ' ' :: scalar name.toList)
      (Text.flowList (values.map String.toList))) :=
    .item hname (keyOf_scalar hname) (.flowList _)
  have hblock := Reads.under hkeyed.fits
    (hkeyed.entry.opensBlock_eq_false_of_cons hkeyed.name (by decide) (by decide) (by decide))
    (by decide : 3 ≤ 4)
    (.lines (by decide) hfits)
  rw [hkeyed.fits.topKeys_eq_nil (Nat.zero_lt_succ 2)] at hblock
  simp only [List.map_cons, List.take_succ_cons, List.take_zero, List.drop_succ_cons,
    List.drop_zero, List.map_map]
  exact ⟨_, hblock⟩

lemma reads_matrixLines {s : Strategy} (h : ∀ axis ∈ s.axes, isIdentifier axis.1.toList = true) :
    Reads 1 [] (stagesOf (matrixLines s)) (matrixLines s) := by
  by_cases hmatrix : s.hasMatrix = true
  · have hne : s.axes ≠ [] := by simpa [Strategy.hasMatrix] using hmatrix
    obtain ⟨stages, haxes⟩ := reads_axes h hne
    have hlines : Reads 1 [] stages (matrixLines s) := by
      have hblock : Reads 2 [] stages (opening 2 "matrix" :: _) :=
        .opening (.opens (by decide) .plain) (by decide) haxes
      simp only [matrixLines, hmatrix, if_true, List.append_assoc]
      exact .opening (.opens (by decide) .plain) (by decide) hblock
    exact hlines.self
  · rw [matrixLines, if_neg hmatrix]
    exact .nil

lemma reads_script (job : Job) :
    Reads 1 [] (stagesOf (scriptLines job))
      (opening 1 "script" :: (scriptLines job ++ [blank])) := by
  have hfits : ∀ l ∈ scriptLines job, Fits 2 l := by
    refine List.forall_mem_map.2 fun line hline => ?_
    obtain ⟨s, -, hs⟩ := List.mem_flatMap.1 hline
    unfold scriptOf at hs
    split at hs
    · obtain ⟨line, -, rfl⟩ := List.mem_map.1 (List.mem_filter.1 hs).1
      exact fits_item (Text.trim_trim line)
    · simp at hs
  have hlines : Reads 2 [] (stagesOf (scriptLines job)) (scriptLines job ++ [blank]) :=
    .append_blank (.lines (by decide) hfits)
  exact .opening (.opens (by decide) .plain) (by decide) hlines

/-- What the linter reads in a job: its name, its stage, and whatever its variables, its matrix and
its script seem to say. -/
lemma reads_jobLines (t : Trigger) {job : Job} (h : job.Identified) :
    Reads 0 [job.name.toList] (job.name.toList :: stagesOf (looseLines job))
      (jobLines (rules t) job) := by
  have hstage : Reads 1 [] [job.name.toList]
      [entry 1 "stage".toList (scalar job.name.toList)] := by
    have hkeyed : Keyed "stage".toList _ (entry 1 "stage".toList (scalar job.name.toList)) :=
      .holds (by decide) .plain (.scalar _)
    have hline : Reads 1 [] _ [entry 1 "stage".toList (scalar job.name.toList)] :=
      .lines Nat.one_pos (List.forall_mem_singleton.2 hkeyed.fits)
    rwa [stagesOf, List.filterMap_cons, Keyed.stageOf?_eq_some (keyOf_scalar h.name) h.name,
      List.filterMap_nil] at hline
  have himage : Reads 1 [] []
      (job.dockerImage.map fun image => entry 1 "image".toList (scalar image.toList)).toList :=
    .option_line fun image _ =>
      .keyed (.holds (by decide) .plain (.scalar _)) Nat.one_pos (by decide)
  have htimeout : Reads 1 [] [] (job.timeout.map fun n =>
      entry 1 "timeout".toList (toString n.toNat ++ "m").toList).toList := by
    refine .option_line fun n _ => .keyed (.holds (by decide) .plain ?_) Nat.one_pos (by decide)
    rw [String.toList_append, toList_toString]
    exact OneLine.append_iff.2 ⟨.toDigits _, by decide⟩
  have hneeds : Reads 1 [] [] (if job.needs.isEmpty then []
      else [listEntry 1 "needs".toList (job.needs.map String.toList)]) :=
    .ite (fun _ => .nil) fun _ =>
      .keyed (.holds (by decide) .plain (.flowList _)) Nat.one_pos (by decide)
  have hmatrix : Reads 1 [] (stagesOf ((job.effectiveStrategy.map matrixLines).getD []))
      ((job.effectiveStrategy.map matrixLines).getD []) := by
    cases hs : job.effectiveStrategy with
    | none => exact .nil
    | some s => exact reads_matrixLines (h.effectiveAxes hs)
  have hback := (reads_variables h).append (hmatrix.append ((reads_rules t).append
    (reads_script job)))
  have hbody := hstage.append (himage.append (htimeout.append (hneeds.append
    ((reads_cache job).append hback))))
  have hjob := Reads.opening (.opens h.name (keyOf_scalar h.name)) (Nat.zero_le 1) hbody
  simpa [jobLines, looseLines, stagesOf, key, variableLines, scriptLines] using hjob

/-! ## The declared stages -/

lemma reads_document {p : Pipeline} (hjobs : ∀ job ∈ p.jobs, job.Identified)
    (hsecrets : ∀ s ∈ p.secrets, Consistency.isSecretKey s.key = true) :
    Reads 0 ((if p.secrets.isEmpty then [] else ["variables".toList]) ++
        "stages".toList :: p.jobs.map (·.name.toList))
      (p.jobs.flatMap fun job => job.name.toList :: stagesOf (looseLines job)) (document p) := by
  have hdoc := ((reads_secretLines hsecrets).append
    (reads_stageLines fun job hjob => (hjobs job hjob).name)).append
    (.flatMap fun job hjob => reads_jobLines p.triggers (hjobs job hjob))
  rw [List.append_assoc, List.singleton_append, ← List.map_eq_flatMap] at hdoc
  exact hdoc

/-- Behind the list of stages stands a line at the left margin: the name of the first job. -/
lemma isTopLevel_head?_jobs (t : Trigger) {jobs : List Job}
    (hnames : ∀ job ∈ jobs, isIdentifier job.name.toList = true) :
    ∀ l ∈ ((jobs.flatMap (jobLines (rules t))).map standing).head?, l.isTopLevel = true := by
  cases jobs with
  | nil => simp
  | cons job jobs =>
    have hname := hnames job List.mem_cons_self
    have hkeyed : Keyed job.name.toList [] (key 0 (scalar job.name.toList)) :=
      .opens hname (keyOf_scalar hname)
    intro l hl
    rw [List.flatMap_cons, jobLines] at hl
    simp only [List.cons_append, List.map_cons, List.head?_cons, Option.mem_def,
      Option.some.injEq] at hl
    rw [← hl]
    exact hkeyed.isTopLevel_eq_true rfl

/-- None of the items under `stages` is skipped as a comment. -/
lemma filter_isStructural_items {jobs : List Job}
    (hnames : ∀ job ∈ jobs, isIdentifier job.name.toList = true) :
    ((jobs.map fun j => item 1 (scalar j.name.toList)).map standing).filter Line.isStructural =
      (jobs.map fun j => item 1 (scalar j.name.toList)).map standing := by
  refine List.filter_eq_self.2 (List.forall_mem_map.2 (List.forall_mem_map.2 fun job hjob => ?_))
  unfold Line.isStructural Line.isBlank Line.isComment
  rw [standing_item_trimmed (hnames job hjob)]
  rfl

/-- The stages that are declared are the names of the jobs. -/
lemma declaredStages_document {p : Pipeline} (hne : p.jobs ≠ [])
    (hsecrets : ∀ s ∈ p.secrets, Consistency.isSecretKey s.key = true)
    (hnames : ∀ job ∈ p.jobs, isIdentifier job.name.toList = true) :
    declaredStages ((document p).map standing) = p.jobs.map (·.name.toList) := by
  have hheader : Keyed "stages".toList [] (opening 0 "stages") := .opens (by decide) .plain
  have hdoc : (document p).map standing =
      (secretLines p.secrets).map standing ++ standing (opening 0 "stages") ::
        (((p.jobs.map fun j => item 1 (scalar j.name.toList)).map standing ++ [standing blank]) ++
          (p.jobs.flatMap (jobLines (rules p.triggers))).map standing) := by
    simp [document, stageLines, hne]
  have hfront : "stages".toList ∉ topKeys ((secretLines p.secrets).map standing) := by
    rw [(reads_secretLines hsecrets).keys_eq]
    split <;> decide
  have hchildren : ∀ l ∈ (p.jobs.map fun j => item 1 (scalar j.name.toList)).map standing ++
      [standing blank], l.isTopLevel = false := by
    refine List.forall_mem_append.2 ⟨?_, List.forall_mem_singleton.2 (by decide)⟩
    refine List.forall_mem_map.2 (List.forall_mem_map.2 fun job hjob => ?_)
    have hfits : Fits 1 (item 1 (scalar job.name.toList)) :=
      fits_item (trim_identifier (hnames job hjob))
    exact hfits.isTopLevel_eq_false (by decide)
  rw [hdoc, declaredStages_append hfront (hheader.isTopLevel_eq_true rfl) (hheader.keyAndRest?_eq 0)
    hchildren (isTopLevel_head?_jobs p.triggers hnames), List.filter_append]
  have hblank : [standing blank].filter Line.isStructural = [] := by decide
  rw [hblank, filter_isStructural_items hnames, List.append_nil, List.map_map, List.filterMap_map]
  rw [← List.filterMap_eq_map]
  refine List.filterMap_congr fun job hjob => ?_
  have hname := hnames job hjob
  simp only [Function.comp_apply, standing_item_trimmed hname]
  exact congrArg some (unquote_key (keyOf_scalar hname) hname)

/-! ## Pipelines -/

lemma exists_begins (p : Pipeline) : ∃ l ∈ document p, Begins l.text := by
  have hstages : ∃ l ∈ stageLines p.jobs, Begins l.text := by
    unfold stageLines
    split
    · exact ⟨_, List.mem_cons_self, 's', _, rfl, by decide⟩
    · exact ⟨_, List.mem_cons_self, 's', _, rfl, by decide⟩
  obtain ⟨l, hl, hbegins⟩ := hstages
  exact ⟨l, List.mem_append_left _ (List.mem_append_right _ hl), hbegins⟩

/-- The names of jobs are declared, so that only other stages are left. -/
lemma filter_names (jobs : List Job) :
    (jobs.flatMap fun job => job.name.toList :: stagesOf (looseLines job)).filter
        (fun stage => !(jobs.map (·.name.toList)).contains stage) =
      (jobs.flatMap fun job => stagesOf (looseLines job)).filter
        fun stage => !jobs.any fun job => job.name.toList == stage := by
  have hdeclared : (fun stage => !(jobs.map (·.name.toList)).contains stage) =
      fun stage => !jobs.any fun job => job.name.toList == stage := by
    funext stage
    rw [List.contains_eq_any_beq, List.any_map]
    congr 2
    funext job
    exact Bool.beq_comm
  rw [hdeclared, List.filter_flatMap, List.filter_flatMap]
  refine List.flatMap_congr fun job hjob => List.filter_cons_of_neg ?_
  rw [Bool.not_eq_true', Bool.not_eq_false, List.any_eq_true]
  exact ⟨job, hjob, beq_self_eq_true _⟩

/-- The only errors in the pipeline written for some jobs are stages that are not declared: those
that lines of variables, matrices and scripts seem to name. -/
theorem lint_gitlab {p : Pipeline} (hvalid : p.violations = []) (hjobs : ∀ job ∈ p.jobs, job.Tidy)
    (hon : ∀ job ∈ p.jobs, job.name ≠ "on") :
    (report (gitlab p).toList).problems.map (·.cause) =
      (undeclaredStages p).map fun stage => .undeclaredStage (String.ofList stage) := by
  have hsecrets := isSecretKey_of_violations hvalid
  have hnames : ∀ job ∈ p.jobs, isIdentifier job.name.toList = true :=
    fun job hjob => (hjobs job hjob).name
  have honkey : "on".toList ∉ (if p.secrets.isEmpty then [] else ["variables".toList]) ++
      "stages".toList :: p.jobs.map (·.name.toList) := by
    rw [List.mem_append, List.mem_cons, not_or, not_or]
    refine ⟨?_, by decide, ?_⟩
    · split <;> decide
    · intro hmem
      obtain ⟨job, hjob, heq⟩ := List.mem_map.1 hmem
      exact hon job hjob (String.toList_injective heq)
  have hstages : "stages".toList ∈ (if p.secrets.isEmpty then [] else ["variables".toList]) ++
      "stages".toList :: p.jobs.map (·.name.toList) :=
    List.mem_append_right _ List.mem_cons_self
  rw [gitlab, String.toList_ofList,
    (reads_document (fun job hjob => (hjobs job hjob).identified) hsecrets).problems_report
      (exists_begins p) honkey hstages]
  congr 1
  by_cases hne : p.jobs = []
  · rw [undeclaredStages, hne]
    rfl
  · rw [declaredStages_document hne hsecrets hnames, filter_names, undeclaredStages]

theorem lint_gitlab_deployment : Pipeline.deployment.violations = [] ∧
    (report (gitlab Pipeline.deployment).toList).problems.map (·.cause) =
      [.undeclaredStage "production", .undeclaredStage "production"] := by
  have hvalid : Pipeline.deployment.violations = [] := by decide
  have hstages : undeclaredStages Pipeline.deployment =
      ["production".toList, "production".toList] := by decide
  refine ⟨hvalid, ?_⟩
  rw [lint_gitlab hvalid Pipeline.tidy_deployment (by decide), hstages]
  rfl

end Pipework.Emit.Gitlab
