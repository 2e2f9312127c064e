import Pipework.Emit.Github
import Pipework.Proofs.Emit.Legible

/-!
# What a workflow says

The workflow written for a pipeline, read as a document, is the object `Github.workflow`: every part
of the pipeline stands there under its name, as the value that it has.  The keys of secrets have no
quotes, so that a secret whose name is a word of the format is no string there.
-/

namespace Pipework.Emit.Github

open Layout Yaml

/-! ## The object of a workflow -/

/-- What a push must be to start the workflow: one to some branches with changes below some paths,
or one of a version tag. -/
def pushFields (t : Trigger) : List (Typed × Typed) :=
  present [
    ("branches", if t.push then some (strings t.branches) else none),
    ("paths", if t.push ∧ t.paths ≠ [] then some (strings t.paths) else none),
    ("tags", if t.tags then some (strings ["v*"]) else none)]

/-- The entry for pushes, and that for pull requests. -/
def pushEntry (t : Trigger) : String × Option Typed :=
  ("push", object? (pushFields t))

def requestEntry (t : Trigger) : String × Option Typed :=
  ("pull_request",
    if t.pullRequest then some (.object [(.string "branches", strings t.branches)]) else none)

/-- The events that start the workflow.  A push of tags alone stands behind pull requests. -/
def events (t : Trigger) : List (Typed × Typed) :=
  present ((if t.push then [pushEntry t, requestEntry t] else [requestEntry t, pushEntry t]) ++ [
    ("schedule",
      if trimmed t.cron.toList = [] then none
      else some (.list [.object [
        (.string "cron", .string (String.ofList (trimmed t.cron.toList)))]])),
    ("workflow_dispatch", if t.workflowDispatch then some .null else none)])

/-- The step that restores and saves a cache of dependencies. -/
def cacheStep : Typed :=
  .object [
    (.string "name", .string "Cache dependencies"),
    (.string "uses", .string "actions/cache@v4"),
    (.string "with", .object [
      (.string "path", .string "~/.cache"),
      (.string "key", .string ("$\x7b\x7b runner.os \x7d\x7d-cache-$\x7b\x7b hashFiles(" ++
        "'**/package-lock.json', '**/Cargo.lock', '**/requirements*.txt') \x7d\x7d")),
      (.string "restore-keys", .string "$\x7b\x7b runner.os \x7d\x7d-cache-\n")])]

/-- A shell step.  Empty lines at the end of its script do not count. -/
def stepFields (s : Step) : List (Typed × Typed) :=
  present [
    ("name", some (.string s.name)),
    ("if", s.condition.map .string),
    ("continue-on-error",
      if s.continueOnError = some true then some (.bool true) else none),
    ("run", some (.string (String.ofList (blockText (s.content.toList.splitOn '\n')))))]

/-- The axes of a matrix that have values, and the failure policy. -/
def strategyFields (job : Job) : List (Typed × Typed) :=
  present [
    ("matrix", object? job.axisFields),
    ("fail-fast", (job.strategy.bind (·.failFast)).map .bool)]

/-- The steps of a job, behind that of the cache if there is one. -/
def steps (job : Job) : List Typed :=
  (if job.cache then [cacheStep] else []) ++ job.steps.map fun s => .object (stepFields s)

/-- A job. -/
def jobFields (job : Job) : List (Typed × Typed) :=
  present [
    ("runs-on", if job.runsOn = "" then none else some (.string job.runsOn)),
    ("timeout-minutes", job.timeout.map fun n => .number (.natural n.toNat)),
    ("needs", if job.needs = [] then none else some (strings job.needs)),
    ("strategy", object? (strategyFields job)),
    ("container", job.dockerImage.map .string),
    ("env", object? job.variableFields),
    ("steps", some ((list? (steps job)).getD .null))]

/-- The secrets, each as a reference to itself. -/
def secretFields (p : Pipeline) : List (Typed × Typed) :=
  p.secrets.map fun s =>
    (bareKey s.key, .string ("$\x7b\x7b secrets." ++ s.key ++ " \x7d\x7d"))

/-- A whole workflow. -/
def workflow (p : Pipeline) : List (Typed × Typed) :=
  present [
    ("name", some (.string "CI Pipeline")),
    ("on", object? (events p.triggers)),
    ("env", object? (secretFields p)),
    ("jobs", some ((object?
      (p.jobs.map fun job => (.string job.name, .object (jobFields job)))).getD .null))]

variable {levels : Nat}

/-! ## Steps -/

lemma saysItems_step {s : Step} (h : s.Legible) (hrun : s.kind = .run) :
    SaysItems (levels + 3) 3 (stepLines s) [.object (stepFields s)] := by
  have hname : SaysFields (levels + 2) 4
      [⟨4, "name".toList ++ ':' :: ' ' :: scalar s.name.toList⟩]
      [(.string "name", .string s.name)] :=
    .plain (by decide) (.string h.name)
  have hcondition : SaysField? (levels + 2) 4 (s.condition.map (value 4 "if")).toList "if"
      (s.condition.map .string) :=
    .option_line fun c hc => .plain (by decide) (.string (h.condition c hc))
  have hcontinue : SaysField? (levels + 2) 4
      (if s.continueOnError == some true then [plain 4 "continue-on-error" "true"] else [])
      "continue-on-error" (if s.continueOnError = some true then some (.bool true) else none) := by
    simp only [beq_iff_eq]
    exact .guarded fun _ => .plain (by decide) (.scalar (.plain (by decide)) rfl)
  have hscript : SaysFields (levels + 2) 4 (block 4 "run".toList s.content.toList)
      [(.string "run", .string (String.ofList (blockText (s.content.toList.splitOn '\n'))))] := by
    obtain ⟨j, hj⟩ := h.exists_splitOn_eq
    rw [hj, blockText_append_replicate]
    exact .plain (by decide) (.literal h.flat_lines)
  have hfields : SaysFields (levels + 2) 4
      ([⟨4, "name".toList ++ ':' :: ' ' :: scalar s.name.toList⟩] ++
        ((s.condition.map (value 4 "if")).toList ++
          ((if s.continueOnError == some true then [plain 4 "continue-on-error" "true"] else []) ++
            block 4 "run".toList s.content.toList)))
      (stepFields s) :=
    .cons hname (.cons hcondition (.cons hcontinue (.last hscript)))
  rw [stepLines, hrun, List.append_assoc]
  exact .object (by simp) hfields (by simp [stepFields, present_cons])
    (apart_present (by simp))

lemma saysItems_cache : SaysItems (levels + 3) 3 cacheLines [cacheStep] := by
  have hname : SaysFields (levels + 2) 4
      [⟨4, "name".toList ++ ':' :: ' ' :: "Cache dependencies".toList⟩]
      [(.string "name", .string "Cache dependencies")] :=
    .plain (by decide) (.plain (by decide) rfl)
  have huses : SaysFields (levels + 2) 4 [plain 4 "uses" "actions/cache@v4"]
      [(.string "uses", .string "actions/cache@v4")] :=
    .plain (by decide) (.plain (by decide) rfl)
  have hpath : SaysFields (levels + 1) 5 [plain 5 "path" "~/.cache"]
      [(.string "path", .string "~/.cache")] :=
    .plain (by decide) (.plain (by decide) rfl)
  have hkey : SaysFields (levels + 1) 5 [plain 5 "key" cacheKey]
      [(.string "key", .string cacheKey)] :=
    .plain (by decide) (.plain (by decide) (resolve_dollar _))
  have hrestore : SaysFields (levels + 1) 5
      (block 5 "restore-keys".toList "$\x7b\x7b runner.os \x7d\x7d-cache-".toList)
      [(.string "restore-keys", .string "$\x7b\x7b runner.os \x7d\x7d-cache-\n")] :=
    .plain (by decide) (.literal (by decide))
  have hinputs := hpath.append (hkey.append hrestore)
  have hwith : SaysFields (levels + 2) 4 _ [(.string "with", _)] :=
    .plain (by decide) (.object hinputs (by simp) (by simp [Typed.Apart, Typed.same]))
  exact .object (by simp) (hname.append (huses.append hwith)) (by simp)
    (by simp [Typed.Apart, Typed.same])

/-! ## Jobs -/

/-- The matrix, if any of its axes has values. -/
lemma saysField?_matrix {job : Job} {s : Strategy} (h : job.Legible) (hs : job.strategy = some s) :
    SaysField? (levels + 3) 3
      (if s.hasMatrix then
        opening 3 "matrix" :: s.axes.map fun axis =>
          listEntry 4 (scalar axis.1.toList) (axis.2.map String.toList)
      else []) "matrix" (object? job.axisFields) := by
  rw [Strategy.hasMatrix, ← Job.axes_eq_of_strategy hs]
  refine .object (fun hnil => ?_) fun hne => ?_
  · simp [List.map_eq_nil_iff.1 hnil]
  · have haxes : job.axes ≠ [] := fun hnil => hne (by rw [Job.axisFields, hnil, List.map_nil])
    rw [if_pos (by simpa using haxes)]
    exact .plain (by decide) (.object (h.saysFields_axes 4) hne job.apart_axisFields)

lemma saysField?_failFast (failFast : Option Bool) :
    SaysField? (levels + 3) 3 (failFast.map fun b => plain 3 "fail-fast" (toString b)).toList
      "fail-fast" (failFast.map .bool) := by
  refine .option_line fun b _ => .plain (by decide) ?_
  cases b with
  | false => exact .scalar (.plain (by decide : Plain "false".toList)) rfl
  | true => exact .scalar (.plain (by decide : Plain "true".toList)) rfl

/-- A strategy has nothing to write if nothing of it would be said. -/
lemma isEmpty_iff {job : Job} {s : Strategy} (hs : job.strategy = some s) :
    s.isEmpty = true ↔ strategyFields job = [] := by
  rw [Strategy.isEmpty, Strategy.hasMatrix, ← Job.axes_eq_of_strategy hs]
  cases hfailFast : s.failFast <;> cases haxes : job.axes <;>
    simp [strategyFields, present, Typed.named, object?, Job.axisFields, hs, hfailFast, haxes]

/-- A strategy is written unless it says nothing. -/
lemma saysField?_strategy {job : Job} (h : job.Legible) :
    SaysField? (levels + 4) 2 ((job.effectiveStrategy.map strategyLines).getD []) "strategy"
      (object? (strategyFields job)) := by
  cases hstrategy : job.strategy with
  | none =>
    have hfields : strategyFields job = [] := by
      simp [strategyFields, present, Typed.named, Job.axisFields, Job.axes, hstrategy, object?]
    rw [hfields, Job.effectiveStrategy, hstrategy]
    exact .absent
  | some s =>
    have hfields : SaysFields (levels + 3) 3 _ (strategyFields job) :=
      .cons (saysField?_matrix h hstrategy) (.last (by
        rw [hstrategy]
        exact saysField?_failFast s.failFast))
    have hempty := isEmpty_iff hstrategy
    rw [Job.effectiveStrategy, hstrategy, Option.filter_some]
    refine .object (fun hnil => ?_) fun hne => ?_
    · simp [hempty.2 hnil]
    · rw [if_pos (by simpa using hempty.not.2 hne)]
      exact .plain (by decide) (.object hfields hne (apart_present (by simp)))

lemma saysField?_timeout (timeout : Option UInt32) :
    SaysField? (levels + 1) 2 (timeout.map fun n => plain 2 "timeout-minutes" (toString n.toNat)).toList
      "timeout-minutes" (timeout.map fun n => .number (.natural n.toNat)) := by
  refine .option_line fun n _ => .plain (by decide) ?_
  have hplain := plain_toDigits_append n.toNat (s := []) (by simp)
  have hsize : n.toNat < UInt64.size := n.toNat_lt.trans (by decide)
  rw [List.append_nil] at hplain
  rw [toList_toString]
  refine .scalar (.plain hplain) ?_
  simp [Typed.ofScalar?, Node.isForeign, Node.meaning?, resolve_toDigits hsize, Typed.ofResolved?,
    Typed.withTag]

/-- The steps of a job stand in their order behind that of the cache. -/
lemma saysFields_steps {job : Job} (h : job.Legible) (hrun : ∀ s ∈ job.steps, s.kind = .run) :
    SaysFields (levels + 4) 2
      ([opening 2 "steps"] ++ (if job.cache then cacheLines else []) ++ job.steps.flatMap stepLines)
      [(.string "steps", (list? (steps job)).getD .null)] := by
  have hcache : SaysItems (levels + 3) 3 (if job.cache then cacheLines else [])
      (if job.cache then [cacheStep] else []) := by
    split
    · exact saysItems_cache
    · exact .nil
  have hsteps : SaysItems (levels + 3) 3 (job.steps.flatMap stepLines)
      (job.steps.map fun s => .object (stepFields s)) := by
    rw [List.map_eq_flatMap]
    exact .flatMap fun s hs => saysItems_step (h.steps s hs) (hrun s hs)
  refine .plain (by decide) (.list_getD (hcache.append hsteps) fun hnone => ?_)
  obtain ⟨hnocache, hnosteps⟩ := List.append_eq_nil_iff.1 hnone
  rw [List.map_eq_nil_iff.1 hnosteps]
  cases hcached : job.cache with
  | false => rfl
  | true => simp [hcached] at hnocache

/-- A job stands under its name. -/
lemma saysFields_job {job : Job} (h : job.Legible) (hrun : ∀ s ∈ job.steps, s.kind = .run) :
    SaysFields (levels + 5) 1 (jobLines job) [(.string job.name, .object (jobFields job))] := by
  have hrunner : SaysField? (levels + 4) 2
      (if job.runsOn.isEmpty then [] else [value 2 "runs-on" job.runsOn]) "runs-on"
      (if job.runsOn = "" then none else some (.string job.runsOn)) := by
    simp only [String.isEmpty_iff]
    exact .guarded_not fun _ => .plain (by decide) (.string h.runsOn)
  have hneeds : SaysField? (levels + 4) 2
      (if job.needs.isEmpty then [] else [names 2 "needs" job.needs]) "needs"
      (if job.needs = [] then none else some (strings job.needs)) := by
    simp only [List.isEmpty_iff]
    exact .guarded_not fun _ => .plain (by decide) (.flowList h.needs)
  have himage : SaysField? (levels + 4) 2 (job.dockerImage.map (value 2 "container")).toList
      "container" (job.dockerImage.map .string) :=
    .option_line fun image himage => .plain (by decide) (.string (h.image image himage))
  have henv : SaysField? (levels + 4) 2 (envLines job.envVars) "env"
      (object? job.variableFields) :=
    .objectOf fun hvars => .plain (by decide) (h.saysValue_variables 2 hvars)
  have hfields : SaysFields (levels + 4) 2 _ (jobFields job) :=
    .cons hrunner (.cons (saysField?_timeout job.timeout) (.cons hneeds (.cons
      (saysField?_strategy h) (.cons himage (.cons henv (.last (saysFields_steps h hrun)))))))
  have hbody := hfields.append .blank
  rw [List.append_nil] at hbody
  have hjob := h.name.saysFields
    (.object hbody (by simp [jobFields, present_cons]) (apart_present (by simp)))
  simpa only [jobLines, key, List.append_assoc, List.cons_append, List.nil_append] using hjob

/-! ## Triggers -/

section

variable {style : TagPush} {t : Trigger}

/-- Pushes of branches, with those of tags unless they stand apart from them. -/
lemma saysField?_push (h : t.Legible) (hpush : t.push = true)
    (hstyle : style = .separate → t.tags = false) :
    SaysField? (levels + 3) 1 (pushLines style t) "push" (object? (pushFields t)) := by
  have hmerged : (style == .merged && t.tags) = t.tags := by
    cases style with
    | merged => simp
    | separate => simp [hstyle rfl]
  have hbranches : SaysField? (levels + 2) 2 [names 2 "branches" t.branches] "branches"
      (if t.push then some (strings t.branches) else none) := by
    rw [if_pos hpush]
    exact .plain (by decide) (.flowList h.branches)
  have hpaths : SaysField? (levels + 2) 2
      (if t.paths.isEmpty then [] else [names 2 "paths" t.paths]) "paths"
      (if t.push ∧ t.paths ≠ [] then some (strings t.paths) else none) := by
    simp only [hpush, true_and, List.isEmpty_iff, ite_not]
    exact .guarded_not fun _ => .plain (by decide) (.flowList h.paths)
  have htags : SaysField? (levels + 2) 2
      (if style == .merged && t.tags then [names 2 "tags" [tagPattern]] else []) "tags"
      (if t.tags then some (strings ["v*"]) else none) := by
    rw [hmerged]
    exact .guarded fun _ => .plain (by decide) (.flowList (by decide))
  have hfields : SaysFields (levels + 2) 2 _ (pushFields t) :=
    .cons hbranches (.cons hpaths (.last htags))
  rw [pushLines, if_pos hpush, List.append_assoc]
  refine .object (fun hnil => ?_) fun hne => ?_
  · simp [pushFields, present_cons, hpush] at hnil
  · exact .plain (by decide) (.object hfields hne (apart_present (by simp)))

/-- Pushes of tags alone. -/
lemma saysField?_tags (hpush : t.push = false) :
    SaysField? (levels + 3) 1 (tagLines style t) "push" (object? (pushFields t)) := by
  rw [tagLines, hpush, Bool.and_false, Bool.not_false, Bool.and_true]
  cases htags : t.tags with
  | false =>
    have hnone : object? (pushFields t) = none := by
      rw [object?_eq_none_iff, pushFields, present_eq_nil_iff]
      simp [hpush, htags]
    rw [hnone]
    exact .absent
  | true =>
    have hfields : pushFields t = [(.string "tags", strings ["v*"])] := by
      simp [pushFields, present, Typed.named, hpush, htags]
    rw [hfields, if_pos rfl]
    exact .plain (by decide) (.object (.plain (by decide) (.flowList (by decide))) (by simp)
      (List.pairwise_singleton _ _))

lemma written_quotedCron (h : t.Legible) :
    Written (quotedCron (trimmed t.cron.toList)) false (trimmed t.cron.toList) := by
  unfold quotedCron
  split
  · exact written_doubleQuoted h.writable_cron.quotable
  · rename_i hfeed
    exact written_singleQuoted (h.writable_cron.flat (by simpa using hfeed))

lemma saysField?_request (h : t.Legible) :
    SaysField? (levels + 3) 1
      (if t.pullRequest then [opening 1 "pull_request", names 2 "branches" t.branches] else [])
      (requestEntry t).1 (requestEntry t).2 := by
  refine .guarded fun _ => .plain (by decide) (.object ?_ (by simp) (List.pairwise_singleton _ _))
  exact .plain (by decide) (.flowList h.branches)

/-- The schedule is a list of one entry, which opens with its dash. -/
lemma saysField?_schedule (h : t.Legible) :
    SaysField? (levels + 4) 1
      (if t.hasSchedule then
        [opening 1 "schedule", entry 2 "- cron".toList (quotedCron (Text.trim t.cron.toList))]
      else []) "schedule"
      (if trimmed t.cron.toList = [] then none
      else some (.list [.object [
        (.string "cron", .string (String.ofList (trimmed t.cron.toList)))]])) := by
  have hcron : SaysFields (levels + 2) 3
      [⟨3, "cron".toList ++ ':' :: ' ' :: quotedCron (trimmed t.cron.toList)⟩]
      [(.string "cron", .string (String.ofList (trimmed t.cron.toList)))] :=
    .plain (by decide) (.scalar (written_quotedCron h) rfl)
  simp only [Trigger.hasSchedule, Bool.not_eq_true', ← Bool.not_eq_true, isBlank_iff, ite_not,
    trim_eq_trimmed]
  refine .guarded_not fun _ => .plain (by decide) (.list ?_ (by simp))
  exact .object (by simp) hcron (by simp) (List.pairwise_singleton _ _)

lemma saysField?_dispatch (t : Trigger) :
    SaysField? (levels + 1) 1
      (if t.workflowDispatch then [opening 1 "workflow_dispatch"] else []) "workflow_dispatch"
      (if t.workflowDispatch then some .null else none) :=
  .guarded fun _ => .plain (by decide) .null

/-- The events stand in the order of `events`. -/
lemma saysFields_events (levels : Nat) (h : t.Legible)
    (hstyle : ¬(style = .separate ∧ t.push = true ∧ t.tags = true)) :
    SaysFields (levels + 4) 1
      (pushLines style t ++
        ((if t.pullRequest then [opening 1 "pull_request", names 2 "branches" t.branches]
        else []) ++
          (tagLines style t ++
            ((if t.hasSchedule then
              [opening 1 "schedule", entry 2 "- cron".toList (quotedCron (Text.trim t.cron.toList))]
            else []) ++
              (if t.workflowDispatch then [opening 1 "workflow_dispatch"] else [])))))
      (events t) := by
  have hrest : SaysFields (levels + 4) 1 _ _ :=
    .cons (saysField?_schedule h) (.last (saysField?_dispatch t))
  have hrequest : SaysField? (levels + 4) 1 _ _ _ := saysField?_request h
  cases hpush : t.push with
  | true =>
    have htags : tagLines style t = [] := by
      cases style with
      | merged => simp [tagLines, hpush]
      | separate => simpa [tagLines, hpush] using hstyle
    have hfirst : SaysField? (levels + 4) 1 (pushLines style t) "push" _ :=
      saysField?_push h hpush fun hsep =>
        Bool.eq_false_iff.2 fun htags => hstyle ⟨hsep, hpush, htags⟩
    rw [htags, List.nil_append, events, if_pos hpush]
    exact .cons hfirst (.cons hrequest hrest)
  | false =>
    have hlines : pushLines style t = [] := by simp [pushLines, hpush]
    have hsecond : SaysField? (levels + 4) 1 (tagLines style t) "push" _ := saysField?_tags hpush
    simp only [hlines, List.nil_append, events, hpush, Bool.false_eq_true, if_false]
    exact .cons hrequest (.cons hsecond hrest)

/-- There is an event if anything starts the workflow. -/
lemma events_eq_nil_iff : events t = [] ↔ t.any = false := by
  have hpushes : object? (pushFields t) = none ↔ t.push = false ∧ t.tags = false := by
    rw [object?_eq_none_iff, pushFields, present_eq_nil_iff]
    cases hpush : t.push <;> simp
  have hschedule : t.hasSchedule = false ↔ trimmed t.cron.toList = [] := by
    rw [Trigger.hasSchedule, Bool.not_eq_false', isBlank_iff]
  rw [events, present_eq_nil_iff]
  cases hpush : t.push <;>
    simp [Trigger.any, pushEntry, requestEntry, hpushes, hschedule, hpush, and_assoc]

lemma apart_events : Typed.Apart (events t) := by
  refine apart_present ?_
  split <;> simp [pushEntry, requestEntry]

lemma saysField?_triggers (h : t.Legible)
    (hstyle : ¬(style = .separate ∧ t.push = true ∧ t.tags = true)) :
    SaysField? (levels + 5) 0 (triggerLines style t) "on" (object? (events t)) := by
  have hevents := saysFields_events levels h hstyle
  unfold triggerLines
  refine .object (fun hnil => ?_) fun hne => ?_
  · simp [events_eq_nil_iff.1 hnil]
  · have hon : SaysFields (levels + 5) 0 _ [(.string "on", .object (events t))] :=
      .plain (by decide) (.object hevents hne apart_events)
    rw [if_pos (by simpa using events_eq_nil_iff.not.1 hne)]
    simpa only [opening, key, List.append_assoc, List.cons_append, List.nil_append, List.append_nil]
      using hon.append .blank

end

/-! ## Workflows -/

lemma toList_secretReference (key : String) : (secretReference key).toList =
    '$' :: ("\x7b\x7b secrets.".toList ++ (key.toList ++ " \x7d\x7d".toList)) := by
  rw [secretReference, String.toList_append, String.toList_append, List.append_assoc]
  rfl

/-- The reference to a secret is a string without quotes. -/
lemma plain_secretReference {key : String} (h : IsVariable key) :
    Plain (secretReference key).toList := by
  have hbefore : "\x7b\x7b secrets.".toList.all isTame = true := rfl
  have hbehind : " \x7d\x7d".toList.all isTame = true := rfl
  rw [toList_secretReference]
  refine .of_tame (by decide) (List.forall_mem_cons.2 ⟨by decide, fun c hc => ?_⟩) ?_
  · rcases List.mem_append.1 hc with hc | hc
    · exact List.all_eq_true.1 hbefore c hc
    · rcases List.mem_append.1 hc with hc | hc
      · exact isTame_of_isWord (h.isWord c hc)
      · exact List.all_eq_true.1 hbehind c hc
  · have hlast : (" \x7d\x7d".toList).getLast? = some '\x7d' := by decide
    rw [← List.cons_append, ← List.append_assoc, List.getLast?_append, hlast, Option.some_or]
    decide

lemma saysField?_secrets {p : Pipeline} (h : p.Legible) :
    SaysField? (levels + 3) 0 (secretLines p.secrets) "env" (object? (secretFields p)) := by
  have hsecrets : SaysFields (levels + 2) 1
      (p.secrets.map fun s => plain 1 s.key (secretReference s.key)) (secretFields p) := by
    refine .map fun s hs => ?_
    have hkey := h.secrets s hs
    have htext : resolve (secretReference s.key).toList = .text := by
      rw [toList_secretReference, resolve_dollar]
    exact hkey.saysFields (.plain (plain_secretReference hkey) htext)
  refine .objectOf fun hsome => ?_
  have henv : SaysFields (levels + 3) 0 _ [(.string "env", .object (secretFields p))] :=
    .plain (by decide) (.object hsecrets (mt List.map_eq_nil_iff.1 hsome)
      (Typed.apart_map same_bareKey h.nodup_secrets))
  exact henv.append .blank

lemma saysFields_jobs {p : Pipeline} (h : p.Legible)
    (hrun : ∀ job ∈ p.jobs, ∀ s ∈ job.steps, s.kind = .run) :
    SaysFields (levels + 6) 0 (opening 0 "jobs" :: p.jobs.flatMap jobLines)
      [(.string "jobs", (object?
        (p.jobs.map fun job => (.string job.name, .object (jobFields job)))).getD .null)] := by
  have hjobs : SaysFields (levels + 5) 1 (p.jobs.flatMap jobLines)
      (p.jobs.map fun job => (.string job.name, .object (jobFields job))) := by
    rw [List.map_eq_flatMap]
    exact .flatMap fun job hjob => saysFields_job (h.jobs job hjob) (hrun job hjob)
  refine .plain (by decide) (.object_getD hjobs
    (Typed.apart_map Typed.same_string_of_ne h.nodup_jobs) fun hnone => ?_)
  rw [List.map_eq_nil_iff.1 hnone, List.flatMap_nil]

/-- A workflow says all that its pipeline holds, and nothing else, with the names of its secrets as
keys without quotes. -/
theorem read_github {style : TagPush} {p : Pipeline} (h : p.Legible)
    (hrun : ∀ job ∈ p.jobs, ∀ s ∈ job.steps, s.kind = .run)
    (hstyle : ¬(style = .separate ∧ p.triggers.push = true ∧ p.triggers.tags = true)) :
    readTyped (github style p) = some (.object (workflow p)) := by
  have hname : SaysField? 6 0 [plain 0 "name" workflowName, blank] "name"
      (some (.string "CI Pipeline")) :=
    .append (.plain (by decide) (.plain (by decide) rfl)) .blank
  have hfields : SaysFields 6 0 _ (workflow p) :=
    .cons hname (.cons (saysField?_triggers h.triggers hstyle)
      (.cons (saysField?_secrets h) (.last (saysFields_jobs h hrun))))
  rw [github, document, List.append_assoc, List.append_assoc]
  exact readTyped_write hfields (by simp [workflow, present_cons]) (apart_present (by simp))
    (by decide)

theorem read_github_nightly :
    Pipeline.nightly.Legible ∧ readTyped (github .merged Pipeline.nightly) =
      some (.object (workflow Pipeline.nightly)) :=
  ⟨Pipeline.legible_nightly, read_github Pipeline.legible_nightly (by decide) (by decide)⟩

end Pipework.Emit.Github
