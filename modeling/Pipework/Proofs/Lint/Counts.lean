import Pipework.Emit.Registry
import Pipework.Proofs.Emit.Indentation
import Pipework.Proofs.Lint.Github
import Pipework.Proofs.Lint.Gitlab
import Pipework.Proofs.Lint.Tally

/-!
# The counts are those of the pipeline

The linter counts jobs and steps by the look of their lines, in two ways: below `jobs:` in a
workflow, and among the keys that are not indented elsewhere.  For what is written both give the
numbers of the pipeline (`stats_emit`), if what stands in front of colons are identifiers: no value
hides a job or a step and no script adds one, but a cache counts as a step of its own.
-/

namespace Pipework.Emit

open Layout Lint Yaml

/-! ## Workflows -/

namespace Github

section Quiet

variable {level level' : Nat} {keys : List (List Char)} {name : String}

lemma quiet_opening (hname : isIdentifier name.toList = true) (hlevel : level ≤ level')
    (htop : level' = 0 → name.toList ∈ keys) :
    Holds (Quiet level keys) [opening level' name] :=
  .quiet_key .plain hname hlevel htop

lemma quiet_names (hname : isIdentifier name.toList = true) (hlevel : level ≤ level')
    (htop : level' = 0 → name.toList ∈ keys) (items : List String) :
    Holds (Quiet level keys) [names level' name items] :=
  .quiet_entry .plain hname (OneLine.flowList _).noFeed hlevel htop

lemma quiet_plain {value : String} (hname : isIdentifier name.toList = true)
    (hvalue : '\n' ∉ value.toList) (hlevel : level ≤ level')
    (htop : level' = 0 → name.toList ∈ keys) :
    Holds (Quiet level keys) [plain level' name value] :=
  .quiet_entry .plain hname hvalue hlevel htop

lemma quiet_value (hname : isIdentifier name.toList = true) (hlevel : level ≤ level')
    (htop : level' = 0 → name.toList ∈ keys) (text : String) :
    Holds (Quiet level keys) [value level' name text] :=
  .quiet_entry .plain hname (OneLine.scalar _).noFeed hlevel htop

end Quiet

/-- A schedule is an entry of a list, but not a step. -/
lemma quiet_cron {level : Nat} {keys : List (List Char)} {value : List Char} (hvalue : '\n' ∉ value)
    (hlevel : level ≤ 2) : Holds (Quiet level keys) [entry 2 "- cron".toList value] := by
  have hbegins : Begins (entry 2 "- cron".toList value).text := ⟨'-', _, rfl, by decide⟩
  refine .quiet hbegins ?_ (fun n inBlock => ?_) hlevel (by simp [entry])
  · rw [entry, List.mem_append, not_or]
    exact ⟨by decide, by simpa using hvalue⟩
  · have htrim : (scanned n (entry 2 "- cron".toList value).shown inBlock).trimmed =
        '-' :: ' ' :: 'c' :: Text.trimEnd ("ron".toList ++ ':' :: ' ' :: value) :=
      (trim_shown hbegins).trans (trim_dash (by decide) _)
    rw [opensStep, htrim]
    rfl

lemma quiet_pushLines {level : Nat} {keys : List (List Char)} (hlevel : level ≤ 1)
    (style : TagPush) (t : Trigger) : Holds (Quiet level keys) (pushLines style t) := by
  have hlevel' : level ≤ 2 := Nat.le_succ_of_le hlevel
  unfold pushLines
  refine .ite (fun _ => ?_) fun _ => .nil
  refine .append (.append (.cons ?_ ?_) (.ite (fun _ => .nil) fun _ => ?_))
    (.ite (fun _ => ?_) fun _ => .nil)
  · exact quiet_opening (by decide) hlevel (by simp)
  · exact quiet_names (by decide) hlevel' (by simp) _
  · exact quiet_names (by decide) hlevel' (by simp) _
  · exact quiet_names (by decide) hlevel' (by simp) _

lemma quiet_triggerLines {keys : List (List Char)} (hkeys : "on".toList ∈ keys) (style : TagPush)
    (t : Trigger) : Holds (Quiet 0 keys) (triggerLines style t) := by
  unfold triggerLines
  refine .ite (fun _ => ?_) fun _ => .nil
  refine .append (.append (.append (.append (.append (.append ?_
    (quiet_pushLines (Nat.zero_le 1) style t)) ?_) ?_) ?_) ?_) .quiet_blank
  · exact quiet_opening (by decide) (Nat.zero_le 0) fun _ => hkeys
  · refine .ite (fun _ => .cons ?_ ?_) fun _ => .nil
    · exact quiet_opening (by decide) (Nat.zero_le 1) (by simp)
    · exact quiet_names (by decide) (Nat.zero_le 2) (by simp) _
  · unfold tagLines
    refine .ite (fun _ => .cons ?_ ?_) fun _ => .nil
    · exact quiet_opening (by decide) (Nat.zero_le 1) (by simp)
    · exact quiet_names (by decide) (Nat.zero_le 2) (by simp) _
  · refine .ite (fun _ => .cons ?_ ?_) fun _ => .nil
    · exact quiet_opening (by decide) (Nat.zero_le 1) (by simp)
    · exact quiet_cron (newline_notMem_quotedCron _) (Nat.zero_le 2)
  · exact .ite (fun _ => quiet_opening (by decide) (Nat.zero_le 1) (by simp)) fun _ => .nil

/-- What stands in front of the secrets. -/
lemma quiet_front {keys : List (List Char)} (hname : "name".toList ∈ keys)
    (hon : "on".toList ∈ keys) (style : TagPush) (t : Trigger) :
    Holds (Quiet 0 keys) ([plain 0 "name" workflowName, blank] ++ triggerLines style t) := by
  refine .append (.cons ?_ .quiet_blank) (quiet_triggerLines hon style t)
  exact quiet_plain (by decide) (by decide) (Nat.zero_le 0) fun _ => hname

lemma quiet_secretLines {keys : List (List Char)} (hkeys : "env".toList ∈ keys)
    {secrets : List Secret} (h : ∀ s ∈ secrets, Consistency.isSecretKey s.key = true) :
    Holds (Quiet 0 keys) (secretLines secrets) := by
  unfold secretLines
  refine .ite (fun _ => .nil) fun _ => .cons ?_ (.append (.map fun s hs => ?_) .quiet_blank)
  · exact quiet_opening (by decide) (Nat.zero_le 0) fun _ => hkeys
  · have hkey := isIdentifier_of_isSecretKey (h s hs)
    exact quiet_plain hkey (oneLine_secretReference hkey).noFeed (Nat.zero_le 1) (by simp)

/-! ### Steps -/

/-- The line that a step begins with. -/
lemma tally_header {value : List Char} (hvalue : '\n' ∉ value) :
    Tally 3 0 1 [entry 3 "- name".toList value] := by
  have hbegins : Begins (entry 3 "- name".toList value).text := ⟨'-', _, rfl, by decide⟩
  have hfeed : '\n' ∉ (entry 3 "- name".toList value).text := by
    rw [entry, List.mem_append, not_or]
    exact ⟨by decide, by simpa using hvalue⟩
  have htrim : (standing (entry 3 "- name".toList value)).trimmed =
      "- name".toList ++ ':' :: Text.trimEnd (' ' :: value) := calc
    (standing (entry 3 "- name".toList value)).trimmed =
        Text.trim (entry 3 "- name".toList value).text := trim_shown hbegins
    _ = Text.trimEnd (entry 3 "- name".toList value).text := hbegins.trim_eq
    _ = _ := Text.trimEnd_append_cons (by decide) "- name".toList (' ' :: value)
  have hindent : (standing (entry 3 "- name".toList value)).indent = 6 :=
    leadingSpaces_shown hbegins
  have hstructural : (standing (entry 3 "- name".toList value)).isStructural = true := by
    rw [Line.isStructural, Line.isBlank, Line.isComment, htrim]
    rfl
  have hjob : opensJob (standing (entry 3 "- name".toList value)) = false := by
    rw [opensJob, hindent]
    rfl
  have hstep : opensStep (standing (entry 3 "- name".toList value)) = true := by
    rw [opensStep, htrim]
    rfl
  have hline := Tally.line hbegins hfeed
  rwa [hstructural, hjob, hstep] at hline

lemma quiet_usesLines {level : Nat} {keys : List (List Char)} {content : List Char}
    (hone : (Text.lines content).length ≤ 1) (hlevel : level ≤ 4) :
    Holds (Quiet level keys) (usesLines content) := by
  have hfeed := (alike_usesLines content).noFeed
  rw [usesLines_eq hone, List.forall_mem_singleton, entry, List.mem_append, List.mem_cons,
    List.mem_cons, not_or, not_or, not_or] at hfeed
  rw [usesLines_eq hone]
  exact .quiet_entry .plain (by decide) hfeed.2.2.2 hlevel (by simp)

lemma tally_stepLines {s : Step}
    (hkind : s.kind = .run ∨ (Text.lines s.content.toList).length ≤ 1) :
    Tally 3 0 1 (stepLines s) := by
  unfold stepLines
  refine .append (tally_header (OneLine.scalar _).noFeed) (.quiet ?_ (by decide))
  refine .append (.append (.option_line fun c _ => ?_) (.ite (fun _ => ?_) fun _ => .nil)) ?_
  · exact quiet_value (by decide) (by decide) (by decide) c
  · exact quiet_plain (by decide) (by decide) (by decide) (by decide)
  · cases hs : s.kind with
    | run => exact .quiet_block .plain (by decide) (by decide) (by decide) (by decide)
    | uses => exact quiet_usesLines (hkind.resolve_left (by simp [hs])) (by decide)

lemma tally_cacheLines : Tally 3 0 1 cacheLines := by
  unfold cacheLines
  refine .append (tally_header (by decide)) (.quiet ?_ (by decide))
  refine .append (.cons ?_ (.cons ?_ (.cons ?_ ?_)))
    (.quiet_block .plain (by decide) (by decide) (by decide) (by decide))
  · exact quiet_plain (by decide) (by decide) (by decide) (by decide)
  · exact quiet_opening (by decide) (by decide) (by decide)
  · exact quiet_plain (by decide) (by decide) (by decide) (by decide)
  · exact quiet_plain (by decide) (by decide) (by decide) (by decide)

/-! ### Jobs -/

lemma quiet_strategyLines {s : Strategy} (h : ∀ axis ∈ s.axes, isIdentifier axis.1.toList = true) :
    Holds (Quiet 2 []) (strategyLines s) := by
  unfold strategyLines
  refine .cons (quiet_opening (by decide) (by decide) (by decide))
    (.append ?_ (.option_line fun b _ => ?_))
  · refine .ite (fun _ => .cons (quiet_opening (by decide) (by decide) (by decide))
      (.map fun axis haxis => ?_)) fun _ => .nil
    exact .quiet_entry (keyOf_scalar (h axis haxis)) (h axis haxis) (OneLine.flowList _).noFeed
      (by decide) (by simp)
  · refine quiet_plain (by decide) ?_ (by decide) (by decide)
    cases b <;> decide

lemma quiet_envLines {vars : List EnvVar} (h : ∀ v ∈ vars, isIdentifier v.key.toList = true) :
    Holds (Quiet 2 []) (envLines vars) := by
  unfold envLines
  refine .ite (fun _ => .nil) fun _ =>
    .cons (quiet_opening (by decide) (by decide) (by decide)) (.map fun v hv => ?_)
  exact .quiet_entry (keyOf_scalar (h v hv)) (h v hv) (OneLine.scalar _).noFeed (by decide)
    (by simp)

/-- What a job says before its steps. -/
lemma quiet_settings {job : Job} (h : job.Identified) :
    Holds (Quiet 2 []) ((if job.runsOn.isEmpty then [] else [value 2 "runs-on" job.runsOn]) ++
      (job.timeout.map fun n => plain 2 "timeout-minutes" (toString n.toNat)).toList ++
      (if job.needs.isEmpty then [] else [names 2 "needs" job.needs]) ++
      (job.effectiveStrategy.map strategyLines).getD [] ++
      (job.dockerImage.map (value 2 "container")).toList ++ envLines job.envVars) := by
  refine .append (.append (.append (.append (.append ?_ ?_) ?_) ?_) ?_) (quiet_envLines h.envKeys)
  · exact .ite (fun _ => .nil) fun _ => quiet_value (by decide) (by decide) (by decide) _
  · refine .option_line fun n _ => quiet_plain (by decide) ?_ (by decide) (by decide)
    rw [toList_toString]
    exact (OneLine.toDigits _).noFeed
  · exact .ite (fun _ => .nil) fun _ => quiet_names (by decide) (by decide) (by decide) _
  · exact .option fun s hs => quiet_strategyLines (h.effectiveAxes hs)
  · exact .option_line fun image _ => quiet_value (by decide) (by decide) (by decide) image

/-- The line that a job begins with. -/
lemma tally_key {name : List Char} (hname : isIdentifier name = true) :
    Tally 1 1 0 [key 1 (scalar name)] := by
  have hkeyed : Keyed name [] (key 1 (scalar name)) := .opens hname (keyOf_scalar hname)
  have hstructural : (standing (key 1 (scalar name))).isStructural = true := by
    have hentry : IsEntry name [] (Text.trim (key 1 (scalar name)).shown) := by
      rw [trim_shown hkeyed.begins, hkeyed.begins.trim_eq]
      exact hkeyed.entry.trimEnd
    exact hentry.isStructural hname rfl
  have hindent : (standing (key 1 (scalar name))).indent = 2 := leadingSpaces_shown hkeyed.begins
  have hjob : opensJob (standing (key 1 (scalar name))) = true := by
    rw [opensJob, hindent, isBareKey_standing (keyOf_scalar hname) hname]
    rfl
  have hstep : opensStep (standing (key 1 (scalar name))) = false :=
    opensStep_eq_false (head?_trim_shown (keyOf_scalar hname) hname rfl)
  have hline := Tally.line hkeyed.begins hkeyed.noFeed
  rwa [hstructural, hjob, hstep] at hline

lemma tally_jobLines {job : Job} (h : job.Identified)
    (hkind : ∀ s ∈ job.steps, s.kind = .run ∨ (Text.lines s.content.toList).length ≤ 1) :
    Tally 1 1 (job.cache.toNat + job.steps.length) (jobLines job) := by
  have hcache : Tally 3 0 job.cache.toNat (if job.cache then cacheLines else []) := by
    cases job.cache with
    | true => exact tally_cacheLines
    | false => exact .nil
  have hsteps : Tally 3 0 job.steps.length (job.steps.flatMap stepLines) := by
    have hflat := Tally.flatMap (fun _ => 0) (fun _ => 1)
      fun s hs => tally_stepLines (hkind s hs)
    simpa using hflat
  have hblank : Tally 3 0 0 [blank] := .quiet .quiet_blank (by decide)
  have hopening : Tally 2 0 0 [opening 2 "steps"] :=
    .quiet (quiet_opening (by decide) (by decide) (by decide)) (by decide)
  have hback : Tally 2 _ _ (opening 2 "steps" :: _) :=
    .under (l := opening 2 "steps") hopening ⟨'s', _, rfl, by decide⟩ (by decide) (Nat.le_succ 2)
      ((hcache.append hsteps).append hblank)
  have hkeyed : Keyed job.name.toList [] (key 1 (scalar job.name.toList)) :=
    .opens h.name (keyOf_scalar h.name)
  have hfront := Tally.quiet (quiet_settings h) (by decide)
  have hjob : Tally 1 _ _ (key 1 (scalar job.name.toList) :: _) :=
    .under (tally_key h.name) hkeyed.begins (hkeyed.entry.opensBlock_eq_false hkeyed.name)
      (Nat.le_succ 1) (hfront.append hback)
  simpa [jobLines, List.append_assoc] using hjob

/-! ### Documents -/

/-- The steps of all jobs, counted job by job. -/
lemma sum_steps (jobs : List Job) :
    (jobs.map fun job => job.cache.toNat + job.steps.length).sum =
      (jobs.flatMap (·.steps)).length + jobs.countP (·.cache) := by
  induction jobs with
  | nil => rfl
  | cons job jobs ih =>
    rw [List.map_cons, List.sum_cons, ih, List.flatMap_cons, List.length_append, List.countP_cons]
    cases job.cache with
    | true =>
      simp only [Bool.toNat_true, if_true]
      omega
    | false =>
      simp only [Bool.toNat_false, Bool.false_eq_true, if_false]
      omega

/-- The counts of a workflow are those of its pipeline; each cache is a step more. -/
lemma stats_document (style : TagPush) {p : Pipeline} (hjobs : ∀ job ∈ p.jobs, job.Identified)
    (hkind : ∀ job ∈ p.jobs, ∀ s ∈ job.steps,
      s.kind = .run ∨ (Text.lines s.content.toList).length ≤ 1)
    (hsecrets : ∀ s ∈ p.secrets, Consistency.isSecretKey s.key = true) :
    (report (write (document style p))).stats.jobs = p.jobs.length ∧
      (report (write (document style p))).stats.steps =
        p.stepCount + p.jobs.countP (·.cache) := by
  have hfront : Holds (Quiet 0 ["name".toList, "on".toList, "env".toList])
      ([plain 0 "name" workflowName, blank] ++ triggerLines style p.triggers ++
        secretLines p.secrets) :=
    (quiet_front (by decide) (by decide) style p.triggers).append
      (quiet_secretLines (by decide) hsecrets)
  have hdoc := Tally.flatMap (fun _ => 1) (fun job => job.cache.toNat + job.steps.length)
    fun job hjob => tally_jobLines (hjobs job hjob) (hkind job hjob)
  have hlength : (p.jobs.map fun _ => 1).sum = p.jobs.length := by simp
  rw [sum_steps, hlength] at hdoc
  exact hdoc.stats_report hfront (by decide)

end Github

/-! ## Configurations with stages -/

namespace Gitlab

lemma headings_jobLines (t : Trigger) {job : Job} (h : job.Identified)
    (hname : namesJob job.name.toList = true) :
    headings ((jobLines (rules t) job).map standing) = 1 := by
  have hkeyed : Keyed job.name.toList [] (key 0 (scalar job.name.toList)) :=
    .opens h.name (keyOf_scalar h.name)
  have hkey : (standing (key 0 (scalar job.name.toList))).key? = some job.name.toList := by
    rw [Line.key?, standing, hkeyed.keyAndRest?_eq 0]
    rfl
  have htop := hkeyed.isTopLevel_eq_true rfl
  obtain ⟨rest, hjob⟩ : ∃ rest,
      jobLines (rules t) job = key 0 (scalar job.name.toList) :: rest := by simp [jobLines]
  have hkeys := (reads_jobLines t h).keys_eq
  rw [hjob, List.map_cons, ← List.singleton_append, topKeys_append] at hkeys
  have hrest : topKeys (rest.map standing) = [] := by
    have hhead : topKeys [standing (key 0 (scalar job.name.toList))] = [job.name.toList] := by
      simp [topKeys, htop, hkey]
    rw [hhead] at hkeys
    simpa using hkeys
  have hone : headings [standing (key 0 (scalar job.name.toList))] = 1 := by
    simp [headings, htop, hkey, hname, isBareKey_standing (keyOf_scalar h.name) h.name]
  have hnone : headings (rest.map standing) = 0 := headings_eq_zero (by simp [hrest])
  rw [hjob, List.map_cons, ← List.singleton_append, headings_append, hone, hnone]

/-- What stands in front of the jobs names none. -/
lemma headings_front {p : Pipeline} (hjobs : ∀ job ∈ p.jobs, job.Identified)
    (hsecrets : ∀ s ∈ p.secrets, Consistency.isSecretKey s.key = true) :
    headings ((secretLines p.secrets ++ stageLines p.jobs).map standing) = 0 := by
  have hfront := (reads_secretLines hsecrets).append
    (reads_stageLines fun job hjob => (hjobs job hjob).name)
  refine headings_eq_zero fun key hkey => ?_
  rw [hfront.keys_eq, List.mem_append, List.mem_singleton] at hkey
  rcases hkey with hvariables | rfl
  · split at hvariables
    · cases hvariables
    · obtain rfl := List.mem_singleton.1 hvariables
      decide
  · decide

/-- The jobs that are counted in a configuration with stages are those of its pipeline. -/
lemma countJobs_document {p : Pipeline} (hjobs : ∀ job ∈ p.jobs, job.Identified)
    (hsecrets : ∀ s ∈ p.secrets, Consistency.isSecretKey s.key = true)
    (hnames : ∀ job ∈ p.jobs, namesJob job.name.toList = true)
    (hreserved : ∀ job ∈ p.jobs, job.name ≠ "jobs") :
    countJobs (scan (write (document p))) = p.jobs.length := by
  have hreads := reads_document hjobs hsecrets
  have hscan := hreads.flush.scan_write
  have hkeys : "jobs".toList ∉ topKeys (scan (write (document p))) := by
    rw [← topKeys_bare, hscan, hreads.keys_eq, List.mem_append, List.mem_cons, not_or, not_or]
    refine ⟨?_, by decide, ?_⟩
    · split <;> decide
    · intro hmem
      obtain ⟨job, hjob, heq⟩ := List.mem_map.1 hmem
      exact hreserved job hjob (String.toList_injective heq)
  rw [countJobs_eq_headings hkeys, ← headings_bare, hscan, document, List.map_append,
    headings_append, headings_front hjobs hsecrets, Nat.zero_add, List.map_flatMap]
  exact headings_flatMap fun job hjob =>
    headings_jobLines p.triggers (hjobs job hjob) (hnames job hjob)

end Gitlab

/-! ## Both formats -/

/-- A name that is no keyword of either format names a job. -/
lemma namesJob_of_isIdentifier {name : String} (h : isIdentifier name.toList = true)
    (hgitlab : name ∉ gitlabKeywords) (hgithub : name ∉ githubKeywords) :
    namesJob name.toList = true := by
  obtain ⟨c, rest, hname, -, -, hparts⟩ := exists_of_isIdentifier h
  have hdot : (name.toList.head? != some '.') = true := by
    rw [hname, List.head?_cons, bne_iff_ne, ne_eq, Option.some.injEq]
    rintro rfl
    exact absurd (hparts '.' (hname ▸ List.mem_cons_self)) (by decide)
  have hkeywords : (gitlabKeywords ++ githubKeywords).any
      (fun keyword => keyword.toList == name.toList) = false := by
    refine List.any_eq_false.2 fun keyword hkeyword heq => ?_
    obtain rfl := String.toList_injective (beq_iff_eq.1 heq)
    exact (List.mem_append.1 hkeyword).elim hgitlab hgithub
  rw [namesJob, hdot, hkeywords]
  rfl

/-- The linter counts in what is written the jobs of the pipeline, and in a workflow its steps, with
one more for each job that has a cache. -/
theorem stats_emit {p : Pipeline} (hjobs : ∀ job ∈ p.jobs, job.Identified)
    (hkind : ∀ job ∈ p.jobs, ∀ s ∈ job.steps,
      s.kind = .run ∨ (Text.lines s.content.toList).length ≤ 1)
    (hsecrets : ∀ s ∈ p.secrets, Consistency.isSecretKey s.key = true) :
    (∀ style, (report (github style p).toList).stats.jobs = p.jobs.length ∧
        (report (github style p).toList).stats.steps =
          p.stepCount + p.jobs.countP (·.cache)) ∧
      ((∀ job ∈ p.jobs, job.name ≠ "jobs" ∧ job.name ∉ gitlabKeywords ∧
          job.name ∉ githubKeywords) →
        (report (gitlab p).toList).stats.jobs = p.jobs.length) := by
  refine ⟨fun style => ?_, fun hreserved => ?_⟩
  · rw [github, String.toList_ofList]
    exact Github.stats_document style hjobs hkind hsecrets
  · have hnames : ∀ job ∈ p.jobs, namesJob job.name.toList = true := fun job hjob =>
      namesJob_of_isIdentifier (hjobs job hjob).name (hreserved job hjob).2.1
        (hreserved job hjob).2.2
    rw [gitlab, String.toList_ofList, report, isBlank_write (Gitlab.exists_begins p)]
    exact Gitlab.countJobs_document hjobs hsecrets hnames fun job hjob => (hreserved job hjob).1

/-- A pipeline whose texts look like jobs and steps. -/
def lookalikes : Pipeline where
  secrets := [{ key := "TOKEN" }]
  jobs := [
    { name := "build", cache := true
      steps := [
        { name := "- name: |", content := "jobs:\n  test:\n- name: again\n  deploy:" },
        { name := "\u00a0|", condition := some "\u00a0|", kind := .uses, content := "a\t# : |" }]
      envVars := [{ key := "name", value := "x:" }] },
    { name := "test", steps := [{ content := "\n- name: once more" }] }]

lemma identified_lookalikes : ∀ job ∈ lookalikes.jobs, job.Identified := by
  intro job hjob
  simp only [lookalikes, List.mem_cons, List.not_mem_nil, or_false] at hjob
  rcases hjob with rfl | rfl
  · exact ⟨by decide, by decide, by simp⟩
  · exact ⟨by decide, by decide, by simp⟩

theorem stats_emit_lookalikes :
    (∀ job ∈ lookalikes.jobs, job.Identified) ∧
      ((report (github .merged lookalikes).toList).stats.jobs = 2 ∧
        (report (github .merged lookalikes).toList).stats.steps = 4) ∧
      (report (gitlab lookalikes).toList).stats.jobs = 2 := by
  have hstats := stats_emit identified_lookalikes (by decide) (by decide)
  exact ⟨identified_lookalikes, hstats.1 .merged, hstats.2 (by decide)⟩

end Pipework.Emit
