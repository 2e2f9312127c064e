import Pipework.Proofs.Emit.Indentation
import Pipework.Proofs.Lint.Triggers

/-!
# Pushes of tags

The push of tags is an entry of its own in one style of workflow and part of the entry for pushes in
the other.  The styles differ only where both kinds of pushes start a pipeline, and there the linter
reports the second `push:` of the separate style, whose `tags:` line the merged style has at the end
of the first (`tagPush_styles`).  Branches, paths, schedules and whatever the jobs hold do not
count: no text of a pipeline is taken for a trigger.
-/

namespace Pipework.Emit.Github

open Text Layout Lint
open Yaml (OneLine scalar)

/-! ## Lines that open no block -/

lemma closed_names {level : Nat} {name : String} (hname : isIdentifier name.toList = true)
    (items : List String) : Closed (names level name items) := by
  have hkeyed : Keyed name.toList (' ' :: flowList (items.map String.toList))
      (names level name items) := .holds hname .plain (.flowList _)
  refine ⟨hkeyed.begins, hkeyed.noFeed, ?_⟩
  exact hkeyed.entry.opensBlock_eq_false_of_cons hname (by decide) (by decide) (by decide)

/-- A schedule stands between quotes, so that it is never taken for the mark of a block. -/
lemma closed_cron (cron : List Char) : Closed (entry 2 "- cron".toList (quotedCron cron)) := by
  have hcron : isIdentifier "cron".toList = true := by decide
  have hentry : IsEntry "cron".toList (' ' :: quotedCron cron)
      (entry 2 "- cron".toList (quotedCron cron)).text := .item .plain
  refine ⟨hentry.begins hcron, ?_, ?_⟩
  · simpa [entry] using newline_notMem_quotedCron cron
  · unfold quotedCron at hentry ⊢
    split at hentry
    case isTrue h =>
      rw [if_pos h]
      exact hentry.opensBlock_eq_false_of_cons hcron (by decide) (by decide) (by decide)
    case isFalse h =>
      rw [if_neg h]
      exact hentry.opensBlock_eq_false_of_cons hcron (by decide) (by decide) (by decide)

/-! ## Triggers as entries -/

/-- The entry for pull requests. -/
def requestLines (t : Trigger) : List Layout.Line :=
  if t.pullRequest then [opening 1 "pull_request", names 2 "branches" t.branches] else []

/-- The entries behind those for pushes. -/
def laterLines (t : Trigger) : List Layout.Line :=
  (if t.hasSchedule then
    [opening 1 "schedule", entry 2 "- cron".toList (quotedCron (trim t.cron.toList))]
  else []) ++ (if t.workflowDispatch then [opening 1 "workflow_dispatch"] else [])

/-- What stands below `on:`. -/
def triggerBody (style : TagPush) (t : Trigger) : List Layout.Line :=
  pushLines style t ++ (requestLines t ++ (tagLines style t ++ (laterLines t ++ [blank])))

lemma triggerLines_eq {style : TagPush} {t : Trigger} (h : t.any = true) :
    triggerLines style t = opening 0 "on" :: triggerBody style t := by
  rw [triggerLines, if_pos h]
  simp only [triggerBody, requestLines, laterLines, List.append_assoc, List.cons_append,
    List.nil_append]

/-- The names of the later entries. -/
def laterNames (t : Trigger) : List String :=
  (if t.hasSchedule then ["schedule"] else []) ++
    (if t.workflowDispatch then ["workflow_dispatch"] else [])

/-- The names of the entries below `on:`. -/
def triggerNames (style : TagPush) (t : Trigger) : List String :=
  (if t.push then ["push"] else []) ++
    ((if t.pullRequest then ["pull_request"] else []) ++
      ((if t.tags && !(style == .merged && t.push) then ["push"] else []) ++
        (laterNames t ++ [])))

/-- The lines of the entry for pushes of branches. -/
def branchLines (t : Trigger) : List Layout.Line :=
  names 2 "branches" t.branches :: (if t.paths.isEmpty then [] else [names 2 "paths" t.paths])

/-- The line for tags. -/
def tagsLine : Layout.Line := names 2 "tags" [tagPattern]

lemma closed_branchLines (t : Trigger) : ∀ l ∈ branchLines t, 1 < l.level ∧ Closed l := by
  refine List.forall_mem_cons.2 ⟨⟨Nat.lt_succ_self 1, closed_names (by decide) _⟩, ?_⟩
  split
  · exact List.forall_mem_nil _
  · exact List.forall_mem_singleton.2 ⟨Nat.lt_succ_self 1, closed_names (by decide) _⟩

lemma closed_tagsLine : 1 < tagsLine.level ∧ Closed tagsLine :=
  ⟨Nat.lt_succ_self 1, closed_names (by decide) _⟩

lemma entries_pushLines (style : TagPush) (t : Trigger) :
    Entries 1 (if t.push then ["push"] else []) (pushLines style t) := by
  unfold pushLines
  refine .ite fun _ => ?_
  show Entries 1 ["push"] (opening 1 "push" :: (branchLines t ++ _))
  refine .entry (by decide) (List.forall_mem_append.2 ⟨closed_branchLines t, ?_⟩)
  split
  · exact List.forall_mem_singleton.2 closed_tagsLine
  · exact List.forall_mem_nil _

lemma entries_requestLines (t : Trigger) :
    Entries 1 (if t.pullRequest then ["pull_request"] else []) (requestLines t) := by
  unfold requestLines
  refine .ite fun _ => .entry (by decide) (List.forall_mem_singleton.2 ?_)
  exact ⟨Nat.lt_succ_self 1, closed_names (by decide) _⟩

lemma entries_tagLines (style : TagPush) (t : Trigger) :
    Entries 1 (if t.tags && !(style == .merged && t.push) then ["push"] else [])
      (tagLines style t) := by
  unfold tagLines
  exact .ite fun _ => .entry (by decide) (List.forall_mem_singleton.2 closed_tagsLine)

lemma entries_laterLines (t : Trigger) : Entries 1 (laterNames t) (laterLines t) := by
  refine .append (.ite fun _ => .entry (by decide) (List.forall_mem_singleton.2 ?_))
    (.ite fun _ => .entry (by decide) (List.forall_mem_nil _))
  exact ⟨Nat.lt_succ_self 1, closed_cron _⟩

lemma entries_triggerBody (style : TagPush) (t : Trigger) :
    Entries 1 (triggerNames style t) (triggerBody style t) :=
  .append (entries_pushLines style t) (.append (entries_requestLines t)
    (.append (entries_tagLines style t) (.append (entries_laterLines t) .blank)))

/-- A trigger is named twice only by the two kinds of pushes. -/
lemma nodup_triggerNames {style : TagPush} {t : Trigger}
    (h : style = TagPush.merged ∨ ¬(t.push = true ∧ t.tags = true)) :
    (triggerNames style t).Nodup := by
  have hall : ∀ style : TagPush, ∀ push request tags schedule dispatch : Bool,
      (style = TagPush.merged ∨ ¬(push = true ∧ tags = true)) →
        ((if push then ["push"] else []) ++
          ((if request then ["pull_request"] else []) ++
            ((if tags && !(style == TagPush.merged && push) then ["push"] else []) ++
              (((if schedule then ["schedule"] else []) ++
                (if dispatch then ["workflow_dispatch"] else [])) ++ [])))).Nodup := by
    intro style
    cases style
    · decide
    · decide
  exact hall style _ _ _ _ _ h

/-! ## The rest of a workflow -/

section Rest

variable {name : String}

lemma lacks_names {level : Nat} {key : String} (hkey : '\n' ∉ key.toList) (items : List String) :
    Holds (Lacks name) [names (level + 1) key items] :=
  .lacks_entry hkey (OneLine.flowList _).noFeed

lemma lacks_value {level : Nat} {key : String} (hkey : '\n' ∉ key.toList) (text : String) :
    Holds (Lacks name) [value (level + 1) key text] :=
  .lacks_entry hkey (OneLine.scalar _).noFeed

lemma lacks_block {level : Nat} {key content : List Char} (hkey : '\n' ∉ key) :
    Holds (Lacks name) (block (level + 1) key content) := by
  apply Holds.lacks_of_forall
  intro l hl
  refine ⟨(alike_block hkey).noFeed l hl, ?_⟩
  rcases List.mem_cons.1 hl with rfl | hl
  · exact Nat.succ_pos level
  · obtain ⟨line, -, rfl⟩ := List.mem_map.1 hl
    exact Nat.succ_pos _

lemma lacks_usesLines (content : List Char) : Holds (Lacks name) (usesLines content) := by
  apply Holds.lacks_of_forall
  intro l hl
  refine ⟨(alike_usesLines content).noFeed l hl, ?_⟩
  rcases List.mem_cons.1 hl with rfl | hl
  · exact Nat.succ_pos 3
  · obtain ⟨line, -, rfl⟩ := List.mem_map.1 hl
    exact Nat.succ_pos 3

lemma lacks_stepLines (s : Step) : Holds (Lacks name) (stepLines s) := by
  unfold stepLines
  refine .cons (lacks_value (by decide) _) (.append (.append (.option_line fun c _ => ?_) ?_) ?_)
  · exact lacks_value (by decide) c
  · exact .ite (fun _ => .lacks_entry (by decide) (by decide)) fun _ => .nil
  · cases s.kind with
    | run => exact lacks_block (by decide)
    | uses => exact lacks_usesLines _

lemma lacks_strategyLines (s : Strategy) : Holds (Lacks name) (strategyLines s) := by
  unfold strategyLines
  refine .cons (.lacks_key (by decide)) (.append (.ite (fun _ => ?_) fun _ => .nil) ?_)
  · refine .cons (.lacks_key (by decide)) (.map fun axis _ => ?_)
    exact .lacks_entry (OneLine.scalar _).noFeed (OneLine.flowList _).noFeed
  · refine .option_line fun b _ => .lacks_entry (by decide) ?_
    cases b <;> decide

lemma lacks_envLines (vars : List EnvVar) : Holds (Lacks name) (envLines vars) := by
  unfold envLines
  refine .ite (fun _ => .nil) fun _ => .cons (.lacks_key (by decide)) (.map fun v _ => ?_)
  exact .lacks_entry (OneLine.scalar _).noFeed (OneLine.scalar _).noFeed

/-- All lines of a job are indented. -/
lemma lacks_jobLines (job : Job) : Holds (Lacks name) (jobLines job) := by
  unfold jobLines
  refine .cons (.lacks_key (OneLine.scalar _).noFeed) (.append (.append (.append (.append (.append
    (.append (.append (.append (.append ?_ ?_) ?_) ?_) ?_) (lacks_envLines _)) ?_) ?_) ?_)
    .lacks_blank)
  · exact .ite (fun _ => .nil) fun _ => lacks_value (by decide) _
  · refine .option_line fun n _ => .lacks_entry (by decide) ?_
    rw [Yaml.toList_toString]
    exact (OneLine.toDigits _).noFeed
  · exact .ite (fun _ => .nil) fun _ => lacks_names (by decide) _
  · exact .option fun s _ => lacks_strategyLines s
  · exact .option_line fun image _ => lacks_value (by decide) image
  · exact .lacks_key (by decide)
  · refine .ite (fun _ => Holds.lacks_of_forall ?_) fun _ => .nil
    decide
  · exact .flatMap fun s _ => lacks_stepLines s

/-- Secrets are indented, whatever their names are. -/
lemma lacks_secretLines (hname : "env" ≠ name) {secrets : List Secret}
    (h : ∀ s ∈ secrets, '\n' ∉ s.key.toList) : Holds (Lacks name) (secretLines secrets) := by
  have henv : Keyed "env".toList [] (opening 0 "env") := .opens (by decide) .plain
  have hne : "env".toList ≠ name.toList := fun heq => hname (String.toList_injective heq)
  unfold secretLines
  refine .ite (fun _ => .nil) fun _ => .cons (.lacks_keyed henv hne)
    (.append (.map fun s hs => .lacks_entry (h s hs) ?_) .lacks_blank)
  simp [secretReference, h s hs]

/-- What stands behind the triggers: the secrets, if there are any, and the jobs. -/
lemma lacks_rest (henv : "env" ≠ name) (hjobs : "jobs" ≠ name) {p : Pipeline}
    (h : ∀ s ∈ p.secrets, '\n' ∉ s.key.toList) :
    Holds (Lacks name) (secretLines p.secrets ++ opening 0 "jobs" :: p.jobs.flatMap jobLines) := by
  have hjobsKeyed : Keyed "jobs".toList [] (opening 0 "jobs") := .opens (by decide) .plain
  have hne : "jobs".toList ≠ name.toList := fun heq => hjobs (String.toList_injective heq)
  exact .append (lacks_secretLines henv h)
    (.cons (.lacks_keyed hjobsKeyed hne) (.flatMap fun job _ => lacks_jobLines job))

end Rest

/-- The lines in front of the triggers. -/
def headLines : List Layout.Line := [plain 0 "name" workflowName, blank]

lemma lacks_headLines : Holds (Lacks "on") headLines := by
  have hname : Keyed "name".toList (' ' :: workflowName.toList) (plain 0 "name" workflowName) :=
    .holds (by decide) .plain (by decide)
  exact .cons (.lacks_keyed hname (by decide)) .lacks_blank

/-- Behind the triggers stands a key that is not indented. -/
lemma exists_rest (p : Pipeline) : ∃ next ∈ ["env", "jobs"], ∃ rest,
    secretLines p.secrets ++ opening 0 "jobs" :: p.jobs.flatMap jobLines =
      opening 0 next :: rest := by
  unfold secretLines
  split
  · exact ⟨"jobs", by decide, _, rfl⟩
  · exact ⟨"env", by decide, _, rfl⟩

lemma document_eq (style : TagPush) (p : Pipeline) :
    document style p = headLines ++ (triggerLines style p.triggers ++
      (secretLines p.secrets ++ opening 0 "jobs" :: p.jobs.flatMap jobLines)) := by
  simp only [document, headLines, List.append_assoc]

/-! ## The block below `on:` -/

/-- The lines of a text: those of a workflow up to `on:`, the block below, which is indented, and
what stands behind it, which is not. -/
structure HasTriggerBlock (text : List Char) (block after : List (List Char)) : Prop where
  lines_eq : lines text = ["name: CI Pipeline".toList, [], "on:".toList] ++ block ++ after
  indented : ∀ line ∈ block, line = [] ∨ line.head? = some ' '
  ends : ∀ line ∈ after.head?, line ≠ [] ∧ line.head? ≠ some ' '

/-- The key of pushes as it stands below `on:`. -/
def pushKey : List Char := "  push:".toList

/-- The line for tags as it stands in an entry. -/
def tagsText : List Char := "    tags: [\"v*\"]".toList

/-- The second block is the first one without its second `push:` line, the one at index `n`, and
with the `tags:` line below it at the end of the entry of the first `push:`. -/
inductive TagsMoved : Nat → List (List Char) → List (List Char) → Prop where
  | intro {first between rest : List (List Char)} (hfirst : ∀ line ∈ first, 2 < leadingSpaces line)
      (hnext : ∀ line ∈ (between ++ [pushKey]).head?, leadingSpaces line = 2)
      (hbetween : pushKey ∉ between) (hrest : ∀ line ∈ rest.head?, leadingSpaces line ≤ 2) :
    TagsMoved (1 + first.length + between.length)
      (pushKey :: (first ++ (between ++ pushKey :: tagsText :: rest)))
      (pushKey :: (first ++ tagsText :: (between ++ rest)))

/-- A line at a level has the spaces of the level in front. -/
lemma head?_shown {l : Layout.Line} (h : l.text = [] ∨ 0 < l.level) :
    l.shown = [] ∨ l.shown.head? = some ' ' := by
  by_cases hne : l.text = []
  · exact .inl (shown_of_nil hne)
  · obtain ⟨level, hlevel⟩ := Nat.exists_eq_succ_of_ne_zero (h.resolve_left hne).ne'
    refine .inr ?_
    rw [shown_of_ne_nil hne, hlevel, indent, Nat.succ_mul]
    rfl

section Block

variable {p : Pipeline} (hkeys : ∀ s ∈ p.secrets, '\n' ∉ s.key.toList)
  (hany : p.triggers.any = true)

include hkeys hany

/-- Both styles have the same lines around their triggers. -/
lemma exists_hasTriggerBlock : ∃ after, ∀ style, HasTriggerBlock (github style p).toList
    ((triggerBody style p.triggers).map Layout.Line.shown) after := by
  obtain ⟨next, hnext, rest, hrest⟩ := exists_rest p
  have hfeed := (lacks_rest (by decide : "env" ≠ "on") (by decide) hkeys).noFeed
  refine ⟨(opening 0 next :: rest).map Layout.Line.shown, fun style => ?_⟩
  have hbody := entries_triggerBody style p.triggers
  have hdoc : ∀ l ∈ document style p, '\n' ∉ l.text := by
    rw [document_eq, triggerLines_eq hany]
    refine List.forall_mem_append.2 ⟨lacks_headLines.noFeed, List.forall_mem_append.2 ⟨?_, hfeed⟩⟩
    exact List.forall_mem_cons.2 ⟨by decide, hbody.noFeed⟩
  constructor
  case lines_eq =>
    rw [github, String.toList_ofList, lines_write hdoc, document_eq, triggerLines_eq hany, hrest,
      List.map_append, List.map_append, List.map_cons, List.append_assoc]
    rfl
  case indented =>
    intro line hline
    obtain ⟨l, hl, rfl⟩ := List.mem_map.1 hline
    exact head?_shown (hbody.deep l hl)
  case ends =>
    have hheads : ∀ next ∈ ["env", "jobs"], (opening 0 next).shown ≠ [] ∧
        (opening 0 next).shown.head? ≠ some ' ' := by decide
    intro line hline
    obtain rfl := Option.some.inj hline
    exact hheads next hnext

/-- The triggers that are compared are those below `on:`. -/
lemma repetitions_github (style : TagPush) :
    (report (github style p).toList).repetitions =
      repeatedKeys [] ((scanFrom 4 none
        ((triggerBody style p.triggers).map Layout.Line.shown)).filter
          fun l => l.indent == 1 * levelWidth) := by
  obtain ⟨next, hnext, rest, hrest⟩ := exists_rest p
  have hnames : ∀ next ∈ ["env", "jobs"], isIdentifier next.toList = true := by decide
  have hfeed := (lacks_rest (by decide : "env" ≠ "on") (by decide) hkeys).noFeed
  rw [hrest] at hfeed
  rw [github, String.toList_ofList, document_eq, triggerLines_eq hany, hrest]
  exact repetitions_write (entries_triggerBody style p.triggers) (hnames next hnext)
    lacks_headLines fun l hl => hfeed l (List.mem_cons_of_mem _ hl)

end Block

/-- No trigger is given twice unless both kinds of pushes have entries. -/
lemma repetitions_github_eq_nil {style : TagPush} {p : Pipeline}
    (hkeys : ∀ s ∈ p.secrets, '\n' ∉ s.key.toList)
    (h : style = TagPush.merged ∨ ¬(p.triggers.push = true ∧ p.triggers.tags = true)) :
    (report (github style p).toList).repetitions = [] := by
  by_cases hany : p.triggers.any = true
  · rw [repetitions_github hkeys hany]
    exact (entries_triggerBody style p.triggers).repeatedKeys_eq_nil (nodup_triggerNames h) 4
  · have hnone : triggerLines style p.triggers = [] := by rw [triggerLines, if_neg hany]
    rw [github, String.toList_ofList, document_eq, hnone, List.nil_append]
    apply repetitions_eq_nil
    · exact .append lacks_headLines (lacks_rest (by decide) (by decide) hkeys)
    · exact ⟨_, List.mem_cons_self, 'n', _, rfl, by decide⟩

/-! ## Both kinds of pushes -/

lemma leadingSpaces_branchLines (t : Trigger) :
    ∀ line ∈ (branchLines t).map Layout.Line.shown, 2 < leadingSpaces line := by
  intro line hline
  obtain ⟨l, hl, rfl⟩ := List.mem_map.1 hline
  obtain ⟨hlevel, hclosed⟩ := closed_branchLines t l hl
  rw [leadingSpaces_shown hclosed.begins]
  exact Nat.mul_lt_mul_of_pos_right hlevel (by decide : 0 < levelWidth)

/-- Behind the first entry for pushes stands another entry. -/
lemma leadingSpaces_requestLines (t : Trigger) :
    ∀ line ∈ ((requestLines t).map Layout.Line.shown ++ [pushKey]).head?,
      leadingSpaces line = 2 := by
  unfold requestLines
  split
  · rintro line ⟨⟩
    decide
  · rintro line ⟨⟩
    decide

lemma pushKey_notMem_requestLines (t : Trigger) :
    pushKey ∉ (requestLines t).map Layout.Line.shown := by
  intro hmem
  obtain ⟨l, hl, heq⟩ := List.mem_map.1 hmem
  unfold requestLines at hl
  split at hl
  · rcases List.mem_cons.1 hl with rfl | hl
    · exact absurd heq (by decide)
    · obtain rfl := List.mem_singleton.1 hl
      have hclosed : Closed (names 2 "branches" t.branches) := closed_names (by decide) _
      have hspaces : leadingSpaces pushKey = 4 := heq ▸ leadingSpaces_shown hclosed.begins
      exact absurd hspaces (by decide)
  · cases hl

/-- Behind the second entry for pushes stands another entry, or an empty line. -/
lemma leadingSpaces_laterLines (t : Trigger) :
    ∀ line ∈ ((laterLines t ++ [blank]).map Layout.Line.shown).head?, leadingSpaces line ≤ 2 := by
  unfold laterLines
  split
  · rintro line ⟨⟩
    decide
  · split
    · rintro line ⟨⟩
      decide
    · rintro line ⟨⟩
      decide

section Both

variable {t : Trigger} (hpush : t.push = true) (htags : t.tags = true)

include hpush htags

lemma triggerBody_separate : triggerBody .separate t =
    opening 1 "push" :: (branchLines t ++ requestLines t) ++
      (opening 1 "push" :: [tagsLine] ++ (laterLines t ++ [blank])) := by
  have hstyle : (TagPush.separate == TagPush.merged) = false := rfl
  simp [triggerBody, pushLines, tagLines, branchLines, tagsLine, hpush, htags, hstyle]

lemma triggerBody_merged : triggerBody .merged t =
    opening 1 "push" :: (branchLines t ++
      tagsLine :: (requestLines t ++ (laterLines t ++ [blank]))) := by
  simp [triggerBody, pushLines, tagLines, branchLines, tagsLine, hpush, htags]

/-- The merged block is the separate one with the line for tags at another place. -/
lemma tagsMoved_triggerBody :
    TagsMoved (1 + (branchLines t).length + (requestLines t).length)
      ((triggerBody .separate t).map Layout.Line.shown)
      ((triggerBody .merged t).map Layout.Line.shown) := by
  have hpushKey : (opening 1 "push").shown = pushKey := by decide
  have htagsText : tagsLine.shown = tagsText := by decide
  have hmoved := TagsMoved.intro (leadingSpaces_branchLines t) (leadingSpaces_requestLines t)
    (pushKey_notMem_requestLines t) (leadingSpaces_laterLines t)
  rw [List.length_map, List.length_map] at hmoved
  rw [triggerBody_separate hpush htags, triggerBody_merged hpush htags]
  simpa [hpushKey, htagsText] using hmoved

/-- The second entry for pushes is the only trigger that is given twice. -/
lemma repeatedKeys_separate :
    repeatedKeys [] ((scanFrom 4 none ((triggerBody .separate t).map Layout.Line.shown)).filter
        fun l => l.indent == 1 * levelWidth) =
      [⟨some (4 + (1 + (branchLines t).length + (requestLines t).length)),
        .duplicateTrigger "push"⟩] := by
  have hfront : Entries 1 (["push"] ++ if t.pullRequest then ["pull_request"] else [])
      (opening 1 "push" :: (branchLines t ++ requestLines t)) :=
    .append (.entry (by decide) (closed_branchLines t)) (entries_requestLines t)
  have hnodup : ((["push"] ++ if t.pullRequest then ["pull_request"] else []) ++
      (laterNames t ++ [])).Nodup := by
    have hmerged : (triggerNames .merged t).Nodup := nodup_triggerNames (.inl rfl)
    simpa [triggerNames, hpush, htags] using hmerged
  have hback : Entries 1 (laterNames t ++ []) (laterLines t ++ [blank]) :=
    .append (entries_laterLines t) .blank
  rw [triggerBody_separate hpush htags, hfront.repeatedKeys_of_mem hback hnodup (by decide)
    (List.mem_append_left _ List.mem_cons_self) (List.forall_mem_singleton.2 closed_tagsLine)]
  rw [List.length_cons, List.length_append, Nat.add_assoc 1, Nat.add_comm 1]

end Both

/-! ## The two styles -/

/-- Without both kinds of pushes there is one style. -/
lemma triggerLines_separate_eq_merged {t : Trigger} (h : ¬(t.push = true ∧ t.tags = true)) :
    triggerLines .separate t = triggerLines .merged t := by
  have hpush : pushLines .separate t = pushLines .merged t := by
    cases hp : t.push with
    | false => simp [pushLines, hp]
    | true =>
      have ht : t.tags = false := by simpa [hp] using h
      simp [pushLines, ht]
  have htags : tagLines .separate t = tagLines .merged t := by
    cases ht : t.tags with
    | false => simp [tagLines, ht]
    | true =>
      have hp : t.push = false := by simpa [ht] using h
      simp [tagLines, hp]
  rw [triggerLines, triggerLines, hpush, htags]

/-- The styles of tag pushes differ where the linter says so.  If the names of the secrets stand on
one line, both styles are the same text unless pushes of branches and of tags both start the
pipeline; no trigger is reported as given twice in the merged style, and none in the separate style
unless both do.  Then it is the second `push:` alone, and the merged block below `on:` is the
separate one with this line taken away and its line for tags moved to the end of the first entry. -/
theorem tagPush_styles {p : Pipeline} (hkeys : ∀ s ∈ p.secrets, '\n' ∉ s.key.toList) :
    (github .separate p = github .merged p ↔
        ¬(p.triggers.push = true ∧ p.triggers.tags = true)) ∧
      (report (github .merged p).toList).repetitions = [] ∧
      (¬(p.triggers.push = true ∧ p.triggers.tags = true) →
        (report (github .separate p).toList).repetitions = []) ∧
      (p.triggers.push = true ∧ p.triggers.tags = true →
        ∃ n block block' after,
          HasTriggerBlock (github .separate p).toList block after ∧
            HasTriggerBlock (github .merged p).toList block' after ∧
            TagsMoved n block block' ∧
            (report (github .separate p).toList).repetitions =
              [⟨some (4 + n), .duplicateTrigger "push"⟩]) := by
  have hmerged : (report (github .merged p).toList).repetitions = [] :=
    repetitions_github_eq_nil hkeys (.inl rfl)
  have hboth : p.triggers.push = true ∧ p.triggers.tags = true →
      (report (github .separate p).toList).repetitions =
        [⟨some (4 + (1 + (branchLines p.triggers).length + (requestLines p.triggers).length)),
          .duplicateTrigger "push"⟩] := by
    rintro ⟨hpush, htags⟩
    have hany : p.triggers.any = true := by simp [Trigger.any, hpush]
    rw [repetitions_github hkeys hany, repeatedKeys_separate hpush htags]
  refine ⟨⟨?_, ?_⟩, hmerged, fun h => repetitions_github_eq_nil hkeys (.inr h), ?_⟩
  · intro heq h
    have hone := hboth h
    rw [heq, hmerged] at hone
    cases hone
  · intro h
    rw [github, github, document_eq, document_eq, triggerLines_separate_eq_merged h]
  · rintro ⟨hpush, htags⟩
    have hany : p.triggers.any = true := by simp [Trigger.any, hpush]
    obtain ⟨after, hblock⟩ := exists_hasTriggerBlock hkeys hany
    exact ⟨_, _, _, after, hblock .separate, hblock .merged, tagsMoved_triggerBody hpush htags,
      hboth ⟨hpush, htags⟩⟩

/-- A pipeline with all triggers, whose texts look like further ones. -/
def release : Pipeline where
  triggers := {
    tags := true, pullRequest := true, cron := "0 3 * * *\n  push:", workflowDispatch := true
    branches := ["main", "\n  push:"], paths := ["on:", "|"] }
  secrets := [{ key := "push" }, { key := "on: |" }]
  jobs := [{
    name := "on"
    steps := [
      { name := "push", content := "on:\n  push:\n  push:" },
      { name := "on", kind := .uses, content := "on:\n  push:\n  push:" }] }]

theorem tagPush_styles_release :
    (∀ s ∈ release.secrets, '\n' ∉ s.key.toList) ∧
      github .separate release ≠ github .merged release ∧
      (report (github .merged release).toList).repetitions = [] ∧
      ∃ n block block' after,
        HasTriggerBlock (github .separate release).toList block after ∧
          HasTriggerBlock (github .merged release).toList block' after ∧
          TagsMoved n block block' ∧
          (report (github .separate release).toList).repetitions =
            [⟨some (4 + n), .duplicateTrigger "push"⟩] := by
  have hkeys : ∀ s ∈ release.secrets, '\n' ∉ s.key.toList := by decide
  obtain ⟨hsame, hmerged, -, hboth⟩ := tagPush_styles hkeys
  exact ⟨hkeys, fun heq => hsame.1 heq ⟨rfl, rfl⟩, hmerged, hboth ⟨rfl, rfl⟩⟩

end Pipework.Emit.Github
