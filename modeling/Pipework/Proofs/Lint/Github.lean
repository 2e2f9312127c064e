import Pipework.Emit.Github
import Pipework.Pipeline.Consistency
import Pipework.Proofs.Lint.Clean
import Pipework.Proofs.Text.Parts

/-!
# Workflows lint clean

The linter finds no error and no odd indentation in the workflow that is written for a pipeline, and
hardly anything about the pipeline matters for it: its keys must be identifiers, and its schedule
and its steps must not hold tabs (`lint_github`).  The values may be anything.  A name may even read
as the mark of a block scalar, and the linter then takes lines below it for the block's, but a line
without findings has none inside a block either: every line is clean on its own.
-/

namespace Pipework.Emit.Github

open Layout Lint Yaml

/-! ## What every line of a workflow is -/

lemma clean_opening {level : Nat} {name : String} (hname : isIdentifier name.toList = true)
    (hstages : level = 0 → name.toList ≠ "stages".toList) : Holds Clean [opening level name] :=
  .clean (.opens hname .plain) hstages

lemma clean_names {level : Nat} {name : String} (hname : isIdentifier name.toList = true)
    (hstages : level = 0 → name.toList ≠ "stages".toList) (items : List String) :
    Holds Clean [names level name items] :=
  .clean (.holds hname .plain (.flowList _)) hstages

lemma clean_plain {level : Nat} {name value : String} (hname : isIdentifier name.toList = true)
    (hvalue : OneLine value.toList) (hstages : level = 0 → name.toList ≠ "stages".toList) :
    Holds Clean [plain level name value] :=
  .clean (.holds hname .plain hvalue) hstages

lemma clean_value {level : Nat} {name : String} (hname : isIdentifier name.toList = true)
    (hstages : level = 0 → name.toList ≠ "stages".toList) (text : String) :
    Holds Clean [value level name text] :=
  .clean (.holds hname .plain (.scalar _)) hstages

/-- The first entry of a list item, at a level below the top. -/
lemma clean_item {level : Nat} (name : String) (hname : isIdentifier name.toList = true)
    {value : List Char} (hvalue : OneLine value) :
    Holds Clean [entry (level + 1) ('-' :: ' ' :: name.toList) value] :=
  .clean (.item hname .plain hvalue) (by simp [entry])

/-- A script with its key. -/
lemma clean_block {level : Nat} {name content : List Char} (hname : isIdentifier name = true)
    (hopen : ∀ mark ∈ [['|'], ['|', '2']],
      opensBlock (Text.trim (name ++ ':' :: ' ' :: mark)) = true)
    (htab : '\t' ∉ content) (hstages : level = 0 → name ≠ "stages".toList) :
    Holds Clean (block level name content) := by
  have hmark : Layout.blockMark (Text.lines content) ∈ [['|'], ['|', '2']] := by
    unfold Layout.blockMark
    split
    · decide
    · decide
  have hlines : ∀ line ∈ Text.lines content, OneLine line := by
    intro line hline c hc
    obtain ⟨hmem, hfeed⟩ := Text.mem_lines hline hc
    exact ⟨fun htab' => htab (htab' ▸ hmem), hfeed⟩
  have hone : OneLine (Layout.blockMark (Text.lines content)) := by
    revert hmark
    generalize Layout.blockMark (Text.lines content) = mark
    simp only [List.mem_cons, List.not_mem_nil, or_false]
    rintro (rfl | rfl) <;> decide
  have hkeyed : Keyed name _ (entry level name (Layout.blockMark (Text.lines content))) :=
    .holds hname .plain hone
  refine .block hkeyed.begins (hopen _ hmark)
    (.clean hkeyed hstages) ?_ ?_ ?_
  · exact List.forall_mem_map.2 fun line hline hmem => (hlines line hline _ hmem).2 rfl
  · exact List.forall_mem_map.2 fun line _ => Nat.lt_succ_self level
  · exact List.forall_mem_map.2 fun line hline n => clean_scanned_true (hlines line hline) n

/-! ## Triggers and secrets -/

lemma clean_pushLines (style : TagPush) (t : Trigger) : Holds Clean (pushLines style t) := by
  unfold pushLines
  refine .ite (fun _ => ?_) fun _ => .nil
  refine .append (.append (.cons ?_ ?_) (.ite (fun _ => .nil) fun _ => ?_))
    (.ite (fun _ => ?_) fun _ => .nil)
  · exact clean_opening (by decide) (by decide)
  · exact clean_names (by decide) (by decide) _
  · exact clean_names (by decide) (by decide) _
  · exact clean_names (by decide) (by decide) _

lemma oneLine_quotedCron {cron : List Char} (h : '\t' ∉ cron) : OneLine (quotedCron cron) := by
  unfold quotedCron
  split
  · exact oneLine_doubleQuoted cron
  · rename_i hfeed
    rw [List.contains_iff_mem] at hfeed
    exact oneLine_singleQuoted fun c hc => ⟨fun heq => h (heq ▸ hc), fun heq => hfeed (heq ▸ hc)⟩

lemma clean_triggerLines (style : TagPush) {t : Trigger} (h : '\t' ∉ t.cron.toList) :
    Holds Clean (triggerLines style t) := by
  have hcron : OneLine (quotedCron (Text.trim t.cron.toList)) :=
    oneLine_quotedCron fun hmem => h (Text.mem_of_mem_trim hmem)
  unfold triggerLines
  refine .ite (fun _ => ?_) fun _ => .nil
  refine .append (.append (.append (.append (.append (.append ?_ (clean_pushLines style t)) ?_) ?_)
    ?_) ?_) .clean_blank
  · exact clean_opening (by decide) (by decide)
  · refine .ite (fun _ => .cons ?_ ?_) fun _ => .nil
    · exact clean_opening (by decide) (by decide)
    · exact clean_names (by decide) (by decide) _
  · unfold tagLines
    refine .ite (fun _ => .cons ?_ ?_) fun _ => .nil
    · exact clean_opening (by decide) (by decide)
    · exact clean_names (by decide) (by decide) _
  · refine .ite (fun _ => .cons ?_ ?_) fun _ => .nil
    · exact clean_opening (by decide) (by decide)
    · exact clean_item "cron" (by decide) hcron
  · exact .ite (fun _ => clean_opening (by decide) (by decide)) fun _ => .nil

lemma oneLine_secretReference {key : String} (h : isIdentifier key.toList = true) :
    OneLine (secretReference key).toList := by
  have hkey : OneLine key.toList := KeyOf.plain.oneLine h
  rw [secretReference, String.toList_append, String.toList_append]
  exact OneLine.append_iff.2 ⟨OneLine.append_iff.2 ⟨by decide, hkey⟩, by decide⟩

lemma clean_secretLines {secrets : List Secret}
    (h : ∀ s ∈ secrets, Consistency.isSecretKey s.key = true) :
    Holds Clean (secretLines secrets) := by
  unfold secretLines
  refine .ite (fun _ => .nil) fun _ => .cons (clean_opening (by decide) (by decide)) ?_
  refine .append (.map fun s hs => ?_) .clean_blank
  have hkey := isIdentifier_of_isSecretKey (h s hs)
  exact clean_plain hkey (oneLine_secretReference hkey) (by simp)

/-! ## Steps -/

/-- An action without configuration is one line. -/
lemma usesLines_eq {content : List Char} (hone : (Text.lines content).length ≤ 1) :
    usesLines content =
      [entry 4 "uses".toList (Text.trim ((Text.lines content).headD []))] := by
  have htail : (Text.lines content).tail = [] := by
    rw [← List.length_eq_zero_iff, List.length_tail]
    omega
  simp only [usesLines, htail]
  rfl

lemma clean_usesLines {content : List Char} (hone : (Text.lines content).length ≤ 1)
    (htab : '\t' ∉ content) : Holds Clean (usesLines content) := by
  have haction : OneLine (Text.trim ((Text.lines content).headD [])) := by
    intro c hc
    have hmem := Text.mem_of_mem_trim hc
    cases hlines : Text.lines content with
    | nil => simp [hlines] at hmem
    | cons line rest =>
      rw [hlines, List.headD_cons] at hmem
      obtain ⟨hin, hfeed⟩ := Text.mem_lines (hlines ▸ List.mem_cons_self) hmem
      exact ⟨fun heq => htab (heq ▸ hin), hfeed⟩
  rw [usesLines_eq hone]
  exact .clean (.holds (by decide) .plain haction) (by simp [entry])

lemma clean_stepLines {s : Step} (hkind : s.kind = .run ∨ (Text.lines s.content.toList).length ≤ 1)
    (htab : '\t' ∉ s.content.toList) : Holds Clean (stepLines s) := by
  unfold stepLines
  refine .cons ?_ (.append (.append (.option_line fun c _ => ?_)
    (.ite (fun _ => ?_) fun _ => .nil)) ?_)
  · exact clean_item "name" (by decide) (.scalar _)
  · exact clean_value (by decide) (by decide) c
  · exact clean_plain (by decide) (by decide) (by decide)
  · cases hs : s.kind with
    | run => exact clean_block (by decide) (by decide) htab (by decide)
    | uses => exact clean_usesLines (hkind.resolve_left (by simp [hs])) htab

lemma clean_cacheLines : Holds Clean cacheLines := by
  unfold cacheLines
  refine .append ?_ (clean_block (by decide) (by decide) (by decide) (by decide))
  refine .cons ?_ (.cons ?_ (.cons ?_ (.cons ?_ ?_)))
  · exact clean_item "name" (by decide) (by decide)
  · exact clean_plain (by decide) (by decide) (by decide)
  · exact clean_opening (by decide) (by decide)
  · exact clean_plain (by decide) (by decide) (by decide)
  · exact clean_plain (by decide) (by decide) (by decide)

/-! ## Jobs -/

lemma clean_strategyLines {s : Strategy} (h : ∀ axis ∈ s.axes, isIdentifier axis.1.toList = true) :
    Holds Clean (strategyLines s) := by
  unfold strategyLines
  refine .cons (clean_opening (by decide) (by decide)) (.append ?_ (.option_line fun b _ => ?_))
  · refine .ite (fun _ => .cons (clean_opening (by decide) (by decide)) (.map fun axis haxis => ?_))
      fun _ => .nil
    exact .clean (.holds (h axis haxis) (keyOf_scalar (h axis haxis)) (.flowList _))
      (by simp [listEntry, entry])
  · refine clean_plain (by decide) ?_ (by decide)
    cases b <;> decide

lemma clean_envLines {vars : List EnvVar} (h : ∀ v ∈ vars, isIdentifier v.key.toList = true) :
    Holds Clean (envLines vars) := by
  unfold envLines
  refine .ite (fun _ => .nil) fun _ =>
    .cons (clean_opening (by decide) (by decide)) (.map fun v hv => ?_)
  exact .clean (.holds (h v hv) (keyOf_scalar (h v hv)) (.scalar _)) (by simp [entry])

lemma clean_jobLines {job : Job} (h : job.Tidy)
    (hkind : ∀ s ∈ job.steps, s.kind = .run ∨ (Text.lines s.content.toList).length ≤ 1) :
    Holds Clean (jobLines job) := by
  unfold jobLines
  refine .cons (.clean (.opens h.name (keyOf_scalar h.name)) (by simp [key])) ?_
  refine .append (.append (.append (.append (.append (.append (.append (.append (.append
    ?_ ?_) ?_) ?_) ?_) (clean_envLines h.envKeys)) ?_) ?_) ?_) .clean_blank
  · exact .ite (fun _ => .nil) fun _ => clean_value (by decide) (by decide) _
  · refine .option_line fun n _ => clean_plain (by decide) ?_ (by decide)
    rw [toList_toString]
    exact .toDigits _
  · exact .ite (fun _ => .nil) fun _ => clean_names (by decide) (by decide) _
  · exact .option fun s hs => clean_strategyLines (h.identified.effectiveAxes hs)
  · exact .option_line fun image _ => clean_value (by decide) (by decide) image
  · exact clean_opening (by decide) (by decide)
  · exact .ite (fun _ => clean_cacheLines) fun _ => .nil
  · exact .flatMap fun s hs => clean_stepLines (hkind s hs) (h.contents s hs)

/-! ## Workflows -/

/-- The line that says where the jobs are. -/
lemma exists_jobs_line {front back : List Layout.Line}
    (hfeed : ∀ l ∈ front ++ opening 0 "jobs" :: back, '\n' ∉ l.text) :
    ∃ l ∈ scan (write (front ++ opening 0 "jobs" :: back)), l.hasKey "jobs" = true := by
  have hkeyed : Keyed "jobs".toList [] (opening 0 "jobs") := .opens (by decide) .plain
  obtain ⟨n, hmem⟩ := mem_scan_write hfeed hkeyed.begins rfl
  refine ⟨_, hmem, ?_⟩
  rw [Line.hasKey, Line.key?, hkeyed.keyAndRest?_eq n]
  rfl

lemma clean_document (style : TagPush) {p : Pipeline} (hjobs : ∀ job ∈ p.jobs, job.Tidy)
    (hkind : ∀ job ∈ p.jobs, ∀ s ∈ job.steps,
      s.kind = .run ∨ (Text.lines s.content.toList).length ≤ 1)
    (hsecrets : ∀ s ∈ p.secrets, Consistency.isSecretKey s.key = true)
    (hcron : '\t' ∉ p.triggers.cron.toList) : Holds Clean (document style p) := by
  unfold document
  refine .append (.append (.append (.cons ?_ .clean_blank) (clean_triggerLines style hcron))
    (clean_secretLines hsecrets)) (.cons (clean_opening (by decide) (by decide)) ?_)
  · exact clean_plain (by decide) (by decide) (by decide)
  · exact .flatMap fun job hjob => clean_jobLines (hjobs job hjob) (hkind job hjob)

/-- The workflow of a pipeline lints without errors, and no line of it is oddly indented. -/
theorem lint_github (style : TagPush) {p : Pipeline} (hjobs : ∀ job ∈ p.jobs, job.Tidy)
    (hkind : ∀ job ∈ p.jobs, ∀ s ∈ job.steps,
      s.kind = .run ∨ (Text.lines s.content.toList).length ≤ 1)
    (hsecrets : ∀ s ∈ p.secrets, Consistency.isSecretKey s.key = true)
    (hcron : '\t' ∉ p.triggers.cron.toList) :
    (report (github style p).toList).errors = [] ∧
      ∀ f ∈ (report (github style p).toList).risks, ∀ n, f.cause ≠ .oddIndent n := by
  have hclean := clean_document style hjobs hkind hsecrets hcron
  rw [github, String.toList_ofList]
  exact report_of_clean hclean.scan_write (exists_jobs_line hclean.noFeed)

theorem lint_github_deployment :
    (∀ job ∈ Pipeline.deployment.jobs, job.Tidy) ∧
      (report (github .separate Pipeline.deployment).toList).errors = [] ∧
      ∀ f ∈ (report (github .separate Pipeline.deployment).toList).risks, ∀ n,
        f.cause ≠ .oddIndent n :=
  ⟨Pipeline.tidy_deployment,
    lint_github .separate Pipeline.tidy_deployment (by decide) (by decide) (by decide)⟩

end Pipework.Emit.Github
