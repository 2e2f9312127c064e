import Pipework.Emit.Registry
import Pipework.Proofs.Emit.Shape
import Pipework.Proofs.Lint.Gitlab
import Pipework.Proofs.Text.Parts

/-!
# The indentation of what is written

Whatever the texts in a pipeline are, each of them stays on its line, behind the spaces that the
format puts there: what is written for two pipelines of one shape has the same number of lines, with
the same number of spaces in front of each (`spaces_emit`).  So no name, value or condition can open
a line of its own or move one, and what stands below what is decided by the shape alone.
-/

namespace Pipework

open Layout
open Yaml (OneLine scalar)

/-! ## Texts on one line -/

lemma Unindented.of_isIdentifier {name : List Char} (h : Lint.isIdentifier name = true) :
    Unindented name := by
  have hmarks : ∀ d ∈ Lint.separators, d ∉ name :=
    fun d hd hmem => (Lint.inert_of_isIdentifier h d hmem).2.2 hd
  obtain ⟨c, rest, rfl, -⟩ := Lint.exists_of_isIdentifier h
  have hc : c ≠ ' ' := by
    intro heq
    exact hmarks ' ' (by decide) (heq ▸ List.mem_cons_self)
  exact ⟨by simp [hc], hmarks '\n' (by decide)⟩

namespace Emit

/-- The lines of a text, and what is trimmed from them, have no line feeds. -/
lemma newline_notMem_lines {content line : List Char} (h : line ∈ Text.lines content) :
    '\n' ∉ line :=
  fun hmem => (Text.mem_lines h hmem).2 rfl

lemma alike_opening {level : Nat} {name : String} (h : Unindented name.toList) :
    Alike [opening level name] [opening level name] :=
  .key h h

/-- A script stands as it is, under its key. -/
lemma alike_block {level : Nat} {name content : List Char} (h : '\n' ∉ name) :
    Alike (block level name content) (block level name content) := by
  refine .refl (List.forall_mem_cons.2 ⟨?_, ?_⟩)
  · have hmark : '\n' ∉ blockMark (Text.lines content) := by
      unfold blockMark
      split
      · decide
      · decide
    simp [Layout.entry, h, hmark]
  · intro l hl
    obtain ⟨line, hline, rfl⟩ := List.mem_map.1 hl
    exact newline_notMem_lines hline

/-! ## Workflows -/

namespace Github

lemma alike_names {level : Nat} {name : String} (h : Unindented name.toList)
    (items items' : List String) : Alike [names level name items] [names level name items'] :=
  .entry h h (OneLine.flowList _).noFeed (OneLine.flowList _).noFeed

lemma alike_plain {level : Nat} {name value value' : String} (h : Unindented name.toList)
    (hvalue : '\n' ∉ value.toList) (hvalue' : '\n' ∉ value'.toList) :
    Alike [plain level name value] [plain level name value'] :=
  .entry h h hvalue hvalue'

lemma alike_value {level : Nat} {name : String} (h : Unindented name.toList)
    (text text' : String) : Alike [value level name text] [value level name text'] :=
  .entry h h (OneLine.scalar _).noFeed (OneLine.scalar _).noFeed

lemma newline_notMem_quotedCron (cron : List Char) : '\n' ∉ quotedCron cron := by
  unfold quotedCron
  split
  · exact (Yaml.oneLine_doubleQuoted cron).noFeed
  · rename_i hfeed
    rw [List.contains_iff_mem] at hfeed
    exact Yaml.notMem_singleQuoted (by decide) hfeed

lemma alike_pushLines (style : TagPush) {t t' : Trigger} (h : t.SameShape t') :
    Alike (pushLines style t) (pushLines style t') := by
  unfold pushLines
  refine .ite (by rw [h.push]) (.append (.append (.cons ?_ ?_) ?_) ?_) .nil
  · exact alike_opening (by decide)
  · exact alike_names (by decide) _ _
  · exact .ite (by rw [h.paths]) .nil (alike_names (by decide) _ _)
  · exact .ite (by rw [h.tags]) (alike_names (by decide) _ _) .nil

lemma alike_tagLines (style : TagPush) {t t' : Trigger} (h : t.SameShape t') :
    Alike (tagLines style t) (tagLines style t') := by
  unfold tagLines
  refine .ite (by rw [h.tags, h.push]) (.cons ?_ ?_) .nil
  · exact alike_opening (by decide)
  · exact alike_names (by decide) _ _

lemma alike_triggerLines (style : TagPush) {t t' : Trigger} (h : t.SameShape t') :
    Alike (triggerLines style t) (triggerLines style t') := by
  unfold triggerLines
  refine .ite (by rw [h.any_eq]) (.append (.append (.append (.append (.append (.append ?_
    (alike_pushLines style h)) ?_) (alike_tagLines style h)) ?_) ?_) (.refl (by decide))) .nil
  · exact alike_opening (by decide)
  · refine .ite (by rw [h.pullRequest]) (.cons ?_ ?_) .nil
    · exact alike_opening (by decide)
    · exact alike_names (by decide) _ _
  · refine .ite (by rw [h.schedule]) (.cons ?_ ?_) .nil
    · exact alike_opening (by decide)
    · exact .entry (by decide) (by decide) (newline_notMem_quotedCron _)
        (newline_notMem_quotedCron _)
  · exact .ite (by rw [h.workflowDispatch]) (alike_opening (by decide)) .nil

lemma alike_secretLines {secrets secrets' : List Secret} (hlen : secrets.length = secrets'.length)
    (h : ∀ s ∈ secrets, Unindented s.key.toList) (h' : ∀ s ∈ secrets', Unindented s.key.toList) :
    Alike (secretLines secrets) (secretLines secrets') := by
  have hreference : ∀ key : String, Unindented key.toList →
      '\n' ∉ (secretReference key).toList := by
    intro key hkey
    simp [secretReference, hkey.noFeed]
  unfold secretLines
  refine .ite (by rw [isEmpty_congr hlen]) .nil (.cons (alike_opening (by decide))
    (.append (.map hlen ?_) (.refl (by decide))))
  intro s hs s' hs'
  exact .entry (h s hs) (h' s' hs') (hreference _ (h s hs)) (hreference _ (h' s' hs'))

/-- Cutting bytes off a line leaves a part of it. -/
lemma dropBytes_subset {line rest : List Char} (width : Nat) (hrest : rest ⊆ line) :
    dropBytes line width rest ⊆ line := by
  have htrim : Text.trimStart line ⊆ line := (List.dropWhile_suffix _).subset
  induction width, rest using dropBytes.induct with
  | case1 rest =>
    rw [dropBytes]
    exact hrest
  | case2 width =>
    rw [dropBytes]
    exact htrim
  | case3 width c rest hle ih =>
    rw [dropBytes, if_pos hle]
    exact ih (List.subset_of_cons_subset hrest)
  | case4 width c rest hle =>
    rw [dropBytes, if_neg hle]
    exact htrim

/-- An action and its configuration stand as they are, each line on its own. -/
lemma alike_usesLines (content : List Char) : Alike (usesLines content) (usesLines content) := by
  have hline : ∀ line ∈ Text.lines content, '\n' ∉ line := fun line => newline_notMem_lines
  refine .refl (List.forall_mem_cons.2 ⟨?_, ?_⟩)
  · have haction : '\n' ∉ Text.trim ((Text.lines content).headD []) := by
      intro hmem
      have hhead := Text.mem_of_mem_trim hmem
      cases hlines : Text.lines content with
      | nil => simp [hlines] at hhead
      | cons line rest =>
        rw [hlines, List.headD_cons] at hhead
        exact hline line (hlines ▸ List.mem_cons_self) hhead
    simpa [Layout.entry] using haction
  · intro l hl
    obtain ⟨text, htext, rfl⟩ := List.mem_map.1 hl
    obtain ⟨line, hconfig, rfl⟩ := List.mem_map.1 htext
    intro hmem
    have hlines := List.mem_of_mem_tail (List.mem_filter.1 hconfig).1
    exact hline line hlines (dropBytes_subset _ (List.Subset.refl _) hmem)

lemma alike_stepLines {s s' : Step} (h : s.SameShape s') : Alike (stepLines s) (stepLines s') := by
  unfold stepLines
  rw [h.kind, h.content]
  refine .cons (alike_value (by decide) _ _) (.append (.append ?_ ?_) ?_)
  · exact .option_line h.condition fun c c' => alike_value (by decide) c c'
  · exact .ite (by rw [h.continueOnError]) (.refl (by decide)) .nil
  · cases s'.kind with
    | run => exact alike_block (by decide)
    | uses => exact alike_usesLines _

lemma alike_strategyLines {s s' : Strategy} (h : s.SameShape s') :
    Alike (strategyLines s) (strategyLines s') := by
  unfold strategyLines
  refine .cons (alike_opening (by decide)) (.append ?_ ?_)
  · refine .ite (by rw [h.hasMatrix_eq]) (.cons (alike_opening (by decide)) (.map h.axes ?_)) .nil
    intro axis _ axis' _
    exact .entry (.scalar _) (.scalar _) (OneLine.flowList _).noFeed
      (OneLine.flowList _).noFeed
  · refine .option_line h.failFast fun b b' => alike_plain (by decide) ?_ ?_
    · cases b <;> decide
    · cases b' <;> decide

lemma alike_envLines {vars vars' : List EnvVar} (h : vars.length = vars'.length) :
    Alike (envLines vars) (envLines vars') := by
  unfold envLines
  refine .ite (by rw [isEmpty_congr h]) .nil (.cons (alike_opening (by decide)) (.map h ?_))
  intro v _ v' _
  exact .entry (.scalar _) (.scalar _) (OneLine.scalar _).noFeed
    (OneLine.scalar _).noFeed

lemma alike_jobLines {j j' : Job} (h : j.SameShape j') : Alike (jobLines j) (jobLines j') := by
  have hminutes : ∀ n : Nat, '\n' ∉ (toString n).toList := by
    intro n
    rw [Yaml.toList_toString]
    exact (OneLine.toDigits n).noFeed
  unfold jobLines
  refine .cons (.key (.scalar _) (.scalar _)) (.append (.append (.append (.append (.append (.append
    (.append (.append (.append ?_ ?_) ?_) ?_) ?_) (alike_envLines h.envVars)) ?_) ?_) ?_)
    (.refl (by decide)))
  · exact .ite (by rw [h.runsOn]) .nil (alike_value (by decide) _ _)
  · exact .option_line h.timeout fun n n' => alike_plain (by decide) (hminutes _) (hminutes _)
  · exact .ite (by rw [h.needs]) .nil (alike_names (by decide) _ _)
  · exact .option h.effectiveStrategy fun s s' hs => alike_strategyLines hs
  · exact .option_line h.dockerImage fun image image' => alike_value (by decide) image image'
  · exact alike_opening (by decide)
  · exact .ite (by rw [h.cache]) (.refl (by decide)) .nil
  · exact .flatMap h.steps fun s s' hs => alike_stepLines hs

lemma alike_document (style : TagPush) {p p' : Pipeline} (h : p.SameShape p')
    (hsecrets : ∀ s ∈ p.secrets, Unindented s.key.toList)
    (hsecrets' : ∀ s ∈ p'.secrets, Unindented s.key.toList) :
    Alike (document style p) (document style p') := by
  unfold document
  refine .append (.append (.append (.refl (by decide)) (alike_triggerLines style h.triggers))
    (alike_secretLines h.secrets hsecrets hsecrets')) (.cons (alike_opening (by decide)) ?_)
  exact .flatMap h.jobs fun j j' hj => alike_jobLines hj

end Github

/-! ## Configurations with stages -/

namespace Gitlab

lemma alike_item {level : Nat} {text text' : List Char} (h : '\n' ∉ text) (h' : '\n' ∉ text') :
    Alike [item level text] [item level text'] :=
  .line ⟨rfl, by simpa [item] using h⟩ ⟨rfl, by simpa [item] using h'⟩ rfl

lemma alike_secretLines {secrets secrets' : List Secret} (hlen : secrets.length = secrets'.length)
    (h : ∀ s ∈ secrets, Unindented s.key.toList) (h' : ∀ s ∈ secrets', Unindented s.key.toList) :
    Alike (secretLines secrets) (secretLines secrets') := by
  unfold secretLines
  refine .ite (by rw [isEmpty_congr hlen]) .nil (.cons (alike_opening (by decide))
    (.append (.map hlen ?_) (.refl (by decide))))
  intro s hs s' hs'
  exact .entry (h s hs) (h' s' hs') (by simpa using (h s hs).noFeed)
    (by simpa using (h' s' hs').noFeed)

lemma alike_stageLines {jobs jobs' : List Job} (hlen : jobs.length = jobs'.length) :
    Alike (stageLines jobs) (stageLines jobs') := by
  unfold stageLines
  refine .append (.ite (by rw [isEmpty_congr hlen]) (.refl (by decide))
    (.cons (alike_opening (by decide)) (.map hlen ?_))) (.refl (by decide))
  intro j _ j' _
  exact alike_item (OneLine.scalar _).noFeed (OneLine.scalar _).noFeed

/-- A rule is one line whatever the name of the branch in it. -/
lemma newline_notMem_rules (t : Trigger) : ∀ rule ∈ rules t, '\n' ∉ rule := by
  intro rule hrule
  obtain ⟨c, hc, rfl⟩ := List.mem_map.1 hrule
  exact Yaml.notMem_singleQuoted (by decide) (oneLine_conditions t c hc).noFeed

lemma length_rules {t t' : Trigger} (h : t.SameShape t') :
    (rules t).length = (rules t').length := by
  rw [rules, rules, List.length_map, List.length_map, conditions, conditions, h.push,
    h.pullRequest, h.tags]
  simp only [List.length_append]
  congr 2
  split <;> rfl

/-- The entry of an axis, which begins with its name. -/
lemma unindented_axis (axis : String × List String) : Unindented
    (scalar axis.1.toList ++ ':' :: ' ' :: Text.flowList (axis.2.map String.toList)) := by
  refine (Unindented.scalar _).append ?_
  simpa using (OneLine.flowList _).noFeed

lemma alike_matrixLines {s s' : Strategy} (h : s.SameShape s') :
    Alike (matrixLines s) (matrixLines s') := by
  have haxes := h.axes
  unfold matrixLines
  refine .ite (by rw [h.hasMatrix_eq]) ?_ .nil
  -- The first axis carries the dash of the list entry, the others stand below it.
  refine .append (.append (.refl (by decide)) (.map (by simp [haxes]) ?_))
    (.map (by simp [haxes]) ?_)
  · intro text htext text' htext'
    obtain ⟨axis, -, rfl⟩ := List.mem_map.1 (List.mem_of_mem_take htext)
    obtain ⟨axis', -, rfl⟩ := List.mem_map.1 (List.mem_of_mem_take htext')
    exact alike_item (unindented_axis axis).noFeed (unindented_axis axis').noFeed
  · intro text htext text' htext'
    obtain ⟨axis, -, rfl⟩ := List.mem_map.1 (List.mem_of_mem_drop htext)
    obtain ⟨axis', -, rfl⟩ := List.mem_map.1 (List.mem_of_mem_drop htext')
    exact .line (unindented_axis axis) (unindented_axis axis') rfl

lemma scriptOf_eq {s s' : Step} (h : s.SameShape s') : scriptOf s = scriptOf s' := by
  rw [scriptOf, scriptOf, Step.isRun, Step.isRun, h.kind, h.content]

/-- Jobs of one shape run one script. -/
lemma script_eq {j j' : Job} (h : j.SameShape j') :
    j.steps.flatMap scriptOf = j'.steps.flatMap scriptOf := by
  have hsteps := h.steps
  generalize j.steps = steps at hsteps
  generalize j'.steps = steps' at hsteps
  induction hsteps with
  | nil => rfl
  | cons hs _ ih => rw [List.flatMap_cons, List.flatMap_cons, scriptOf_eq hs, ih]

lemma alike_jobLines {rules rules' : List (List Char)} (hlen : rules.length = rules'.length)
    (hrules : ∀ rule ∈ rules, '\n' ∉ rule) (hrules' : ∀ rule ∈ rules', '\n' ∉ rule) {j j' : Job}
    (h : j.SameShape j') : Alike (jobLines rules j) (jobLines rules' j') := by
  have hminutes : ∀ n : Nat, '\n' ∉ (toString n ++ "m").toList := by
    intro n
    rw [String.toList_append, Yaml.toList_toString, List.mem_append, not_or]
    exact ⟨(OneLine.toDigits n).noFeed, by decide⟩
  unfold jobLines
  refine .append (.append (.append (.append (.append (.append (.append (.append (.append (.append
    ?_ ?_) ?_) ?_) ?_) ?_) ?_) ?_) (alike_opening (by decide))) ?_) (.refl (by decide))
  · exact .cons (.key (.scalar _) (.scalar _))
      (.entry (by decide) (by decide) (OneLine.scalar _).noFeed (OneLine.scalar _).noFeed)
  · exact .option_line h.dockerImage fun image image' =>
      .entry (by decide) (by decide) (OneLine.scalar _).noFeed (OneLine.scalar _).noFeed
  · exact .option_line h.timeout fun n n' =>
      .entry (by decide) (by decide) (hminutes _) (hminutes _)
  · exact .ite (by rw [h.needs]) .nil
      (.entry (by decide) (by decide) (OneLine.flowList _).noFeed (OneLine.flowList _).noFeed)
  · exact .ite (by rw [h.cache]) (.refl (by decide)) .nil
  · refine .ite (by rw [isEmpty_congr h.envVars]) .nil
      (.cons (alike_opening (by decide)) (.map h.envVars ?_))
    intro v _ v' _
    exact .entry (.scalar _) (.scalar _) (OneLine.scalar _).noFeed (OneLine.scalar _).noFeed
  · exact .option h.effectiveStrategy fun s s' hs => alike_matrixLines hs
  · refine .ite (by rw [isEmpty_congr hlen]) .nil
      (.cons (alike_opening (by decide)) (.map hlen ?_))
    intro rule hrule rule' hrule'
    exact alike_item (by simpa using hrules rule hrule) (by simpa using hrules' rule' hrule')
  · rw [script_eq h]
    refine .refl (List.forall_mem_map.2 fun line _ => ?_)
    exact (alike_item (OneLine.scalar line).noFeed (OneLine.scalar line).noFeed).noFeed _
      List.mem_cons_self

lemma alike_document {p p' : Pipeline} (h : p.SameShape p')
    (hsecrets : ∀ s ∈ p.secrets, Unindented s.key.toList)
    (hsecrets' : ∀ s ∈ p'.secrets, Unindented s.key.toList) :
    Alike (document p) (document p') := by
  unfold document
  refine .append (.append (alike_secretLines h.secrets hsecrets hsecrets')
    (alike_stageLines h.jobs.length_eq)) (.flatMap h.jobs fun j j' hj => ?_)
  exact alike_jobLines (length_rules h.triggers) (newline_notMem_rules _) (newline_notMem_rules _)
    hj

end Gitlab

end Emit

/-! ## Both formats -/

/-- What a built-in emitter writes for two pipelines of one shape has the same number of lines, and
lines with the same number have the same number of spaces in front. -/
theorem spaces_emit {e : Emitter} (he : e.BuiltIn) {p p' : Pipeline} (h : p.SameShape p')
    (hsecrets : ∀ s ∈ p.secrets, Consistency.isSecretKey s.key = true)
    (hsecrets' : ∀ s ∈ p'.secrets, Consistency.isSecretKey s.key = true) :
    (Text.lines (e.emit p).toList).map Lint.leadingSpaces =
      (Text.lines (e.emit p').toList).map Lint.leadingSpaces := by
  have hkey : ∀ key : String, Consistency.isSecretKey key = true → Unindented key.toList :=
    fun key hkey => .of_isIdentifier (Lint.isIdentifier_of_isSecretKey hkey)
  have hkeys : ∀ s ∈ p.secrets, Unindented s.key.toList := fun s hs => hkey _ (hsecrets s hs)
  have hkeys' : ∀ s ∈ p'.secrets, Unindented s.key.toList := fun s hs => hkey _ (hsecrets' s hs)
  cases he with
  | github style =>
    show (Text.lines (String.ofList _).toList).map _ = (Text.lines (String.ofList _).toList).map _
    rw [String.toList_ofList, String.toList_ofList]
    exact (Emit.Github.alike_document style h hkeys hkeys').leadingSpaces_lines_write
  | gitlab =>
    show (Text.lines (String.ofList _).toList).map _ = (Text.lines (String.ofList _).toList).map _
    rw [String.toList_ofList, String.toList_ofList]
    exact (Emit.Gitlab.alike_document h hkeys hkeys').leadingSpaces_lines_write

/-- A pipeline of the shape of `deployment`, in which names and values try to begin lines of their
own. -/
def Pipeline.intruding : Pipeline where
  triggers := { cron := "0 3 * * *\n  push:", branches := ["main\"\nstages: []"] }
  secrets := [{ key := "OTHER" }]
  jobs := [{
    name := "  build:\n  deploy"
    runsOn := "'\n    steps: []"
    steps := [
      { name := "\n- run: |", kind := .uses, content := "actions/checkout@v4 # pinned: |" },
      { name := " - x", content := "  stage: production\n   - odd: yes" }]
    envVars := [{ key := "  A\n", value := "\r\n  B: C" }]
    strategy := some { matrix := some (Matrix.empty.insert ":" ["\n", "  "]) } }]

lemma Pipeline.sameShape_intruding : deployment.SameShape intruding where
  triggers := by constructor <;> decide
  secrets := rfl
  jobs := by
    refine .cons ?_ .nil
    constructor
    case steps => exact .cons ⟨rfl, rfl, rfl, rfl⟩ (.cons ⟨rfl, rfl, rfl, rfl⟩ .nil)
    case strategy => exact .some ⟨rfl, rfl⟩
    all_goals rfl

theorem spaces_emit_intruding :
    Pipeline.deployment.SameShape Pipeline.intruding ∧
      (Text.lines (Emitter.gitlab.emit Pipeline.deployment).toList).map Lint.leadingSpaces =
        (Text.lines (Emitter.gitlab.emit Pipeline.intruding).toList).map Lint.leadingSpaces ∧
      (Text.lines ((Emitter.github .merged).emit Pipeline.deployment).toList).map
          Lint.leadingSpaces =
        (Text.lines ((Emitter.github .merged).emit Pipeline.intruding).toList).map
          Lint.leadingSpaces := by
  have hkeys : ∀ s ∈ Pipeline.deployment.secrets, Consistency.isSecretKey s.key = true := by decide
  have hkeys' : ∀ s ∈ Pipeline.intruding.secrets, Consistency.isSecretKey s.key = true := by decide
  exact ⟨Pipeline.sameShape_intruding,
    spaces_emit .gitlab Pipeline.sameShape_intruding hkeys hkeys',
    spaces_emit (.github .merged) Pipeline.sameShape_intruding hkeys hkeys'⟩

end Pipework
