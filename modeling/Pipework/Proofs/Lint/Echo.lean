import Pipework.Proofs.Lint.Counts
import Pipework.Proofs.Lint.Word

/-!
# Printed secrets

The linter warns of lines that print a secret with `echo`.  It takes the secrets from the variables
that are declared at the top, and finds every one there that a pipeline has (`mem_secretVariables`).
In a workflow a script stands as it was given, and each line of it that prints a secret is reported.
A configuration with stages holds the lines as scalars, and there a line is reported only where the
word can still be seen in its scalar: not where it stands right behind a character that is written
as an escape (`secretEcho_emit`).
-/

namespace Pipework

open Text Layout Yaml

/-! ## Findings about lines -/

namespace Lint

/-- A text has a line, as it is read again, at a number counted from one. -/
def StandsAt (l : Layout.Line) (text : List Char) (n : Nat) : Prop :=
  0 < n ∧ (lines text)[n - 1]? = some l.shown

lemma exists_standsAt {doc : List Layout.Line} (hfeed : ∀ l ∈ doc, '\n' ∉ l.text)
    {l : Layout.Line} (h : l ∈ doc) : ∃ n, StandsAt l (write doc) n := by
  obtain ⟨i, hi⟩ := List.mem_iff_getElem?.1 h
  refine ⟨i + 1, Nat.succ_pos i, ?_⟩
  rw [lines_write hfeed, Nat.add_sub_cancel, List.getElem?_map, hi]
  rfl

lemma cause_of_mem_lineRisks {l : Line} {f : Finding Risk} (hf : f ∈ lineRisks l) :
    ∃ spaces, f.cause = .oddIndent spaces := by
  unfold lineRisks at hf
  split at hf
  · obtain rfl := List.mem_singleton.1 hf
    exact ⟨_, rfl⟩
  · cases hf

/-- A line is reported as printing a secret if and only if it looks like that. -/
lemma mem_risks_secretEcho {text : List Char} {l : Layout.Line} {n : Nat}
    (hblank : isBlank text = false) (h : StandsAt l text n) :
    ⟨some n, .secretEcho⟩ ∈ (report text).risks ↔
      leaks (secretVariables (scan text)) (standing l) = true := by
  obtain ⟨hpos, hline⟩ := h
  have hnumber : 1 + (n - 1) = n := by omega
  rw [report, hblank]
  constructor
  · intro hmem
    rcases mem_risks hmem with hlayout | hecho | ⟨_, _, _, hother⟩ | ⟨_, hother⟩ | ⟨_, hother⟩ |
      ⟨_, _, hother⟩
    · obtain ⟨l', -, hl'⟩ := List.mem_flatMap.1 hlayout
      obtain ⟨_, hother⟩ := cause_of_mem_lineRisks hl'
      cases hother
    · obtain ⟨l', hl', heq⟩ := List.mem_map.1 hecho
      obtain ⟨hscan, hleaks⟩ := List.mem_filter.1 hl'
      obtain ⟨i, raw, inBlock, hraw, rfl⟩ := exists_of_mem_scanFrom hscan
      have hi : 1 + i = n := by
        have hline' := congrArg Finding.line heq
        exact Option.some.inj hline'
      obtain rfl : i = n - 1 := by omega
      rw [hline] at hraw
      obtain rfl := Option.some.inj hraw
      exact hleaks
    all_goals cases hother
  · intro hleaks
    obtain ⟨inBlock, hscan⟩ := exists_mem_scanFrom hline 1 none
    rw [hnumber] at hscan
    have hecho : (⟨some n, .secretEcho⟩ : Finding Risk) ∈ echoRisks (scan text) :=
      List.mem_map.2 ⟨_, List.mem_filter.2 ⟨hscan, hleaks⟩, rfl⟩
    simp only [Bool.false_eq_true, if_false, reportLines, List.mem_append]
    exact .inl (.inr hecho)

/-! ## Secrets -/

/-- A value that is a reference is read as one. -/
lemma Keyed.exists_value?_dollar {name value : List Char} {l : Layout.Line}
    (h : Keyed name (' ' :: '$' :: value) l) :
    ∃ rest, (standing l).value? = some ('$' :: rest) := by
  have hend := trimEnd_append_cons (by decide : isSpace '$' = false) [' '] value
  have hstart := trim_append_cons (by decide : isSpace '$' = false)
    (List.forall_mem_singleton.2 (by decide : isSpace ' ' = true)) (Text.trimEnd value)
  rw [List.singleton_append, List.singleton_append] at hend
  rw [List.singleton_append] at hstart
  rw [Line.value?, standing, h.keyAndRest?_eq 0, Option.map_some, hend]
  exact ⟨_, congrArg some hstart⟩

/-- A variable that is declared in a block at the top, and set from something with a dollar sign,
counts as a secret. -/
lemma mem_secretVariables {block : String} (hblock : block ∈ ["env", "variables"])
    {keys : List (List Char)} {front entries rest : List Layout.Line}
    (hfront : Holds (Quiet 0 keys) front) (hkeys : block.toList ∉ keys)
    (hentries : ∀ l ∈ entries, l.level = 1 ∧ ∃ name behind, Keyed name behind l)
    (hrest : ∀ l ∈ rest, '\n' ∉ l.text) {name value : List Char} {l : Layout.Line}
    (hl : l ∈ entries) (hkeyed : Keyed name (' ' :: '$' :: value) l) :
    name ∈ secretVariables (scan (write (front ++ opening 0 block :: (entries ++ rest)))) := by
  have hblocks : ∀ block ∈ ["env", "variables"], isIdentifier block.toList = true := by decide
  have hname := hblocks block hblock
  have hfits : ∀ l ∈ entries, Fits 1 l := by
    intro l hl
    obtain ⟨hlevel, _, _, hkeyed⟩ := hentries l hl
    exact hlevel ▸ hkeyed.fits
  have hflush : Flush 1 entries :=
    .lines fun l hl => ⟨(hfits l hl).level_eq, (hfits l hl).begins, (hfits l hl).noFeed⟩
  have hscan := scan_opening hname hfront.noFeed
    (List.forall_mem_append.2 ⟨hflush.noFeed, hrest⟩)
  obtain ⟨hbare, -⟩ := hflush.stands (1 + front.length + 1) none (outside_none 1)
  have hchildren : ∀ l ∈ scanFrom (1 + front.length + 1) none (entries.map Layout.Line.shown),
      l.isTopLevel = false := by
    intro l hl
    obtain ⟨l', hl', heq⟩ := List.mem_map.1 (hbare ▸ List.mem_map_of_mem hl)
    rw [← isTopLevel_bare, ← heq]
    exact (hfits l' hl').isTopLevel_eq_false Nat.one_pos
  obtain ⟨l', hl', heq⟩ := List.mem_map.1 (hbare ▸ List.mem_map_of_mem hl)
  have hmem : l' ∈ blockChildren
      (scan (write (front ++ opening 0 block :: (entries ++ rest)))) block := by
    rw [hscan, List.map_append, scanFrom_append,
      blockChildren_append (hfront.not_hasKey hkeys 1 none) (opening_isTopLevel hname _) hchildren]
    exact List.mem_append_left _ hl'
  have hkey : l'.key? = some name := by
    rw [← key?_bare, heq, Line.key?, standing, hkeyed.keyAndRest?_eq 0]
    rfl
  obtain ⟨rest', hvalue⟩ : ∃ rest, l'.value? = some ('$' :: rest) := by
    rw [← value?_bare, heq]
    exact hkeyed.exists_value?_dollar
  refine List.mem_filterMap.2 ⟨l', List.mem_flatMap.2 ⟨block, hblock, hmem⟩, ?_⟩
  rw [hvalue, hkey]
  simp

/-- A line of a script that prints a variable: it is no comment, calls `echo`, and refers to the
variable. -/
structure Prints (name line : List Char) : Prop where
  comment : (trim line).head? ≠ some '#'
  echo : HasWord echo (trim line)
  names : Names name (trim line)

lemma HasWord.ne_nil {s : List Char} (h : HasWord echo s) : s ≠ [] := by
  obtain ⟨front, back, rfl, -, rest, rfl, -⟩ := h
  simp [Lint.echo]

/-- A line that refers to a secret and is no comment leaks it if it mentions `echo`. -/
lemma leaks_iff {secrets : List (List Char)} {name : List Char} {l : Line} (hname : name ∈ secrets)
    (hcomment : l.isComment = false) (hrefers : refersTo name l.trimmed = true) :
    leaks secrets l = true ↔ mentionsEcho l.trimmed = true := by
  have hsome : secrets.any (refersTo · l.trimmed) = true :=
    List.any_eq_true.2 ⟨name, hname, hrefers⟩
  rw [leaks, hcomment, hsome]
  simp

end Lint

/-- The lines of the scripts in a pipeline. -/
def Pipeline.scripts (p : Pipeline) : List (List Char) :=
  p.jobs.flatMap fun job => (job.steps.filter (·.isRun)).flatMap fun s => lines s.content.toList

lemma Pipeline.mem_scripts {p : Pipeline} {line : List Char} (h : line ∈ p.scripts) :
    ∃ job ∈ p.jobs, ∃ s ∈ job.steps, s.isRun = true ∧ line ∈ lines s.content.toList := by
  obtain ⟨job, hjob, hjob'⟩ := List.mem_flatMap.1 h
  obtain ⟨s, hs, hline⟩ := List.mem_flatMap.1 hjob'
  obtain ⟨hstep, hrun⟩ := List.mem_filter.1 hs
  exact ⟨job, hjob, s, hstep, hrun, hline⟩

namespace Emit

open Lint

/-- The name of a secret is one of the characters of words. -/
lemma isWordChar_of_isSecretKey {key : String} (h : Consistency.isSecretKey key = true) :
    ∀ c ∈ key.toList, isWordChar c = true :=
  fun c hc => isWordChar_of_isWord (isWord_of_isSecretKey h c hc)

lemma dollar_notMem_of_isSecretKey {key : String} (h : Consistency.isSecretKey key = true) :
    '$' ∉ key.toList :=
  fun hmem => absurd (isWordChar_of_isSecretKey h '$' hmem) (by decide)

/-! ## Workflows -/

namespace Github

variable {p : Pipeline} (style : TagPush)

lemma noFeed_document (hsecrets : ∀ s ∈ p.secrets, Consistency.isSecretKey s.key = true) :
    ∀ l ∈ document style p, '\n' ∉ l.text := by
  have hkeys : ∀ s ∈ p.secrets, Unindented s.key.toList := fun s hs =>
    .of_isIdentifier (isIdentifier_of_isSecretKey (hsecrets s hs))
  exact (alike_document style (.refl p) hkeys hkeys).noFeed

/-- The linter takes every secret for one. -/
lemma mem_secretVariables_document
    (hsecrets : ∀ s ∈ p.secrets, Consistency.isSecretKey s.key = true) {secret : Secret}
    (hsecret : secret ∈ p.secrets) :
    secret.key.toList ∈ secretVariables (scan (write (document style p))) := by
  have hkeyed : ∀ s ∈ p.secrets, ∃ value, Keyed s.key.toList (' ' :: '$' :: value)
      (plain 1 s.key (secretReference s.key)) := by
    intro s hs
    have hname := isIdentifier_of_isSecretKey (hsecrets s hs)
    obtain ⟨value, hvalue⟩ : ∃ value, (secretReference s.key).toList = '$' :: value := by
      simp [secretReference]
    refine ⟨value, ?_⟩
    rw [← hvalue]
    exact .holds hname .plain (oneLine_secretReference hname)
  have hfront : Holds (Quiet 0 ["name".toList, "on".toList])
      ([plain 0 "name" workflowName, blank] ++ triggerLines style p.triggers) :=
    quiet_front (by decide) (by decide) style p.triggers
  have hdoc : document style p =
      ([plain 0 "name" workflowName, blank] ++ triggerLines style p.triggers) ++ opening 0 "env" ::
        (p.secrets.map (fun s => plain 1 s.key (secretReference s.key)) ++
          (blank :: opening 0 "jobs" :: p.jobs.flatMap jobLines)) := by
    have hne : p.secrets ≠ [] := List.ne_nil_of_mem hsecret
    simp [document, secretLines, hne]
  have hfeed := noFeed_document style hsecrets
  rw [hdoc] at hfeed ⊢
  obtain ⟨value, hvalue⟩ := hkeyed secret hsecret
  refine mem_secretVariables (by decide) hfront (by decide) ?_ ?_
    (List.mem_map_of_mem hsecret) hvalue
  · refine List.forall_mem_map.2 fun s hs => ⟨rfl, s.key.toList, ?_⟩
    obtain ⟨value, hvalue⟩ := hkeyed s hs
    exact ⟨_, hvalue⟩
  · intro l hl
    exact hfeed l (List.mem_append_right _ (List.mem_cons_of_mem _ (List.mem_append_right _ hl)))

lemma exists_begins (p : Pipeline) : ∃ l ∈ document style p, Begins l.text :=
  ⟨plain 0 "name" workflowName, List.mem_cons_self, 'n', _, rfl, by decide⟩

/-- A line of a script as it stands in a workflow. -/
def written (line : List Char) : Layout.Line := ⟨5, line⟩

lemma written_mem_document {line : List Char} (h : line ∈ p.scripts) :
    written line ∈ document style p := by
  obtain ⟨job, hjob, s, hs, hrun, hline⟩ := Pipeline.mem_scripts h
  have hkind : s.kind = .run := by simpa [Step.isRun] using hrun
  have hstep : written line ∈ stepLines s := by
    unfold stepLines
    rw [hkind]
    refine List.mem_cons_of_mem _ (List.mem_append_right _ (List.mem_cons_of_mem _ ?_))
    exact List.mem_map_of_mem hline
  have hjobLines : written line ∈ jobLines job := by
    refine List.mem_cons_of_mem _ (List.mem_append_left _ (List.mem_append_right _ ?_))
    exact List.mem_flatMap.2 ⟨s, hs, hstep⟩
  refine List.mem_append_right _ (List.mem_cons_of_mem _ ?_)
  exact List.mem_flatMap.2 ⟨job, hjob, hjobLines⟩

/-- A line of a script that prints a secret looks like that. -/
lemma leaks_written (hsecrets : ∀ s ∈ p.secrets, Consistency.isSecretKey s.key = true)
    {secret : Secret} (hsecret : secret ∈ p.secrets) {line : List Char}
    (hprints : Prints secret.key.toList line) :
    leaks (secretVariables (scan (write (document style p)))) (standing (written line)) = true := by
  have htrim : (standing (written line)).trimmed = trim line :=
    trim_shown_of_ne_nil hprints.echo.ne_nil
  have hcomment : (standing (written line)).isComment = false := by
    rw [Line.isComment, htrim, beq_eq_false_iff_ne]
    exact hprints.comment
  have hrefers : refersTo secret.key.toList (standing (written line)).trimmed = true := by
    rw [htrim]
    exact refersTo_of_names (dollar_notMem_of_isSecretKey (hsecrets _ hsecret)) hprints.names
  rw [leaks_iff (mem_secretVariables_document style hsecrets hsecret) hcomment hrefers, htrim,
    mentionsEcho_iff]
  exact hprints.echo

end Github

/-! ## Configurations with stages -/

namespace Gitlab

variable {p : Pipeline}

lemma noFeed_document (hsecrets : ∀ s ∈ p.secrets, Consistency.isSecretKey s.key = true) :
    ∀ l ∈ document p, '\n' ∉ l.text := by
  have hkeys : ∀ s ∈ p.secrets, Unindented s.key.toList := fun s hs =>
    .of_isIdentifier (isIdentifier_of_isSecretKey (hsecrets s hs))
  exact (alike_document (.refl p) hkeys hkeys).noFeed

lemma mem_secretVariables_document
    (hsecrets : ∀ s ∈ p.secrets, Consistency.isSecretKey s.key = true) {secret : Secret}
    (hsecret : secret ∈ p.secrets) :
    secret.key.toList ∈ secretVariables (scan (write (document p))) := by
  have hkeyed : ∀ s ∈ p.secrets, Keyed s.key.toList (' ' :: '$' :: s.key.toList)
      (entry 1 s.key.toList ('$' :: s.key.toList)) := by
    intro s hs
    have hname := isIdentifier_of_isSecretKey (hsecrets s hs)
    exact .holds hname .plain (OneLine.cons_iff.2 ⟨by decide, KeyOf.plain.oneLine hname⟩)
  have hdoc : document p = [] ++ opening 0 "variables" ::
      (p.secrets.map (fun s => entry 1 s.key.toList ('$' :: s.key.toList)) ++
        (blank :: stageLines p.jobs ++ p.jobs.flatMap (jobLines (rules p.triggers)))) := by
    have hne : p.secrets ≠ [] := List.ne_nil_of_mem hsecret
    simp [document, secretLines, hne]
  have hfeed := noFeed_document hsecrets
  have hnone : Holds (Quiet 0 []) [] := .nil
  rw [hdoc] at hfeed ⊢
  refine mem_secretVariables (by decide) hnone (by decide) ?_ ?_ (List.mem_map_of_mem hsecret)
    (hkeyed secret hsecret)
  · exact List.forall_mem_map.2 fun s hs => ⟨rfl, s.key.toList, _, hkeyed s hs⟩
  · intro l hl
    exact hfeed l (List.mem_append_right _ (List.mem_cons_of_mem _ (List.mem_append_right _ hl)))

/-- A line of a script as it stands in a configuration with stages. -/
def written (line : List Char) : Layout.Line := item 2 (scalar (trim line))

lemma written_mem_document {line : List Char} (h : line ∈ p.scripts) (hne : trim line ≠ []) :
    written line ∈ document p := by
  obtain ⟨job, hjob, s, hs, hrun, hline⟩ := Pipeline.mem_scripts h
  have hscript : trim line ∈ scriptOf s := by
    rw [scriptOf, if_pos hrun, List.mem_filter]
    exact ⟨List.mem_map_of_mem hline, by simpa using hne⟩
  have hjobLines : written line ∈ jobLines (rules p.triggers) job := by
    refine List.mem_append_left _ (List.mem_append_right _ ?_)
    exact List.mem_map_of_mem (List.mem_flatMap.2 ⟨s, hs, hscript⟩)
  exact List.mem_append_right _ (List.mem_flatMap.2 ⟨job, hjob, hjobLines⟩)

/-- The item of a string that is trimmed and not empty stands trimmed. -/
lemma trim_item {s : List Char} (htrim : trim s = s) (hne : s ≠ []) :
    trim ('-' :: ' ' :: scalar s) = '-' :: ' ' :: scalar s := by
  have hquoted : ∀ {q : Char}, isSpace q = false → ∀ t : List Char,
      trim ('-' :: ' ' :: ([q] ++ t ++ [q])) = '-' :: ' ' :: ([q] ++ t ++ [q]) := by
    intro q hq t
    have hend : trimEnd (t ++ [q]) = t ++ [q] := trimEnd_append_cons hq t []
    rw [List.append_assoc, List.singleton_append, trim_dash hq, hend]
  obtain ⟨quote, t, hquote, -, hscalar⟩ := exists_spells_scalar s
  rw [hscalar]
  rcases hquote with ⟨rfl, rfl⟩ | rfl | rfl
  · obtain ⟨c, rest, rfl, hc, hrest⟩ := exists_cons_of_trim_eq_self hne htrim
    rw [List.nil_append, List.append_nil, trim_dash hc, hrest]
  · exact hquoted (by decide) t
  · exact hquoted (by decide) t

/-- A line of a script that prints a secret looks like that where its scalar shows `echo`. -/
lemma leaks_written (hsecrets : ∀ s ∈ p.secrets, Consistency.isSecretKey s.key = true)
    {secret : Secret} (hsecret : secret ∈ p.secrets) {line : List Char}
    (hprints : Prints secret.key.toList line) :
    leaks (secretVariables (scan (write (document p)))) (standing (written line)) = true ↔
      ShowsEcho (standsEscaped (trim line)) (trim line) := by
  have hbegins : Begins (written line).text := ⟨'-', _, rfl, by decide⟩
  have htrim : (standing (written line)).trimmed = '-' :: ' ' :: scalar (trim line) :=
    (trim_shown hbegins).trans (trim_item (trim_trim line) hprints.echo.ne_nil)
  have hcomment : (standing (written line)).isComment = false := by
    rw [Line.isComment, htrim]
    rfl
  have hrefers : refersTo secret.key.toList (standing (written line)).trimmed = true := by
    rw [htrim]
    have hkey := hsecrets _ hsecret
    exact refersTo_of_names (dollar_notMem_of_isSecretKey hkey)
      (hprints.names.item_scalar (isWordChar_of_isSecretKey hkey))
  rw [leaks_iff (mem_secretVariables_document hsecrets hsecret) hcomment hrefers, htrim,
    mentionsEcho_item_scalar]

end Gitlab

/-! ## Both formats -/

/-- In a workflow every line of a script that prints a secret is reported.  In a configuration with
stages it is reported if and only if the word `echo` is seen in its scalar. -/
theorem secretEcho_emit {p : Pipeline}
    (hsecrets : ∀ s ∈ p.secrets, Consistency.isSecretKey s.key = true) {secret : Secret}
    (hsecret : secret ∈ p.secrets) {line : List Char} (hline : line ∈ p.scripts)
    (hprints : Prints secret.key.toList line) :
    (∀ style, (∃ n, StandsAt (Github.written line) (github style p).toList n) ∧
        ∀ n, StandsAt (Github.written line) (github style p).toList n →
          ⟨some n, .secretEcho⟩ ∈ (report (github style p).toList).risks) ∧
      (∃ n, StandsAt (Gitlab.written line) (gitlab p).toList n) ∧
        ∀ n, StandsAt (Gitlab.written line) (gitlab p).toList n →
          (⟨some n, .secretEcho⟩ ∈ (report (gitlab p).toList).risks ↔
            ShowsEcho (standsEscaped (trim line)) (trim line)) := by
  refine ⟨fun style => ?_, ?_⟩
  · rw [github, String.toList_ofList]
    have hblank := isBlank_write (Github.exists_begins style p)
    refine ⟨exists_standsAt (Github.noFeed_document style hsecrets)
      (Github.written_mem_document style hline), fun n hstands => ?_⟩
    rw [mem_risks_secretEcho hblank hstands]
    exact Github.leaks_written style hsecrets hsecret hprints
  · rw [gitlab, String.toList_ofList]
    have hblank := isBlank_write (Gitlab.exists_begins p)
    refine ⟨exists_standsAt (Gitlab.noFeed_document hsecrets)
      (Gitlab.written_mem_document hline hprints.echo.ne_nil), fun n hstands => ?_⟩
    rw [mem_risks_secretEcho hblank hstands]
    exact Gitlab.leaks_written hsecrets hsecret hprints

/-- A line that prints a secret, with a tab in front of `echo`. -/
def echoBehindTab : List Char := "true &&\techo $TOKEN".toList

/-- A pipeline with that line in a script. -/
def tabbed : Pipeline where
  secrets := [{ key := "TOKEN" }]
  jobs := [{ name := "build", steps := [{ content := "true &&\techo $TOKEN" }] }]

lemma prints_echoBehindTab : Prints "TOKEN".toList echoBehindTab where
  comment := by decide
  echo := mentionsEcho_iff.1 (by decide)
  names := ⟨"true &&\techo ".toList, "$TOKEN".toList, rfl, .inr ⟨[], rfl, by simp⟩⟩

/-- The tab is written as `\t`, and the letter runs into the word. -/
lemma not_showsEcho_echoBehindTab :
    ¬ ShowsEcho (standsEscaped (trim echoBehindTab)) (trim echoBehindTab) := by
  rw [← mentionsEcho_item_scalar]
  decide

theorem secretEcho_emit_tabbed :
    Prints "TOKEN".toList echoBehindTab ∧
      (∃ n, StandsAt (Github.written echoBehindTab) (github .merged tabbed).toList n ∧
        ⟨some n, .secretEcho⟩ ∈ (report (github .merged tabbed).toList).risks) ∧
      ∃ n, StandsAt (Gitlab.written echoBehindTab) (gitlab tabbed).toList n ∧
        ⟨some n, .secretEcho⟩ ∉ (report (gitlab tabbed).toList).risks := by
  obtain ⟨hworkflow, ⟨n, hn⟩, hstages⟩ := secretEcho_emit (p := tabbed) (by decide)
    List.mem_cons_self (by decide : echoBehindTab ∈ tabbed.scripts) prints_echoBehindTab
  obtain ⟨⟨m, hm⟩, hreported⟩ := hworkflow .merged
  refine ⟨prints_echoBehindTab, ⟨m, hm, hreported m hm⟩, n, hn, fun hrisk => ?_⟩
  exact not_showsEcho_echoBehindTab ((hstages n hn).1 hrisk)

end Emit

end Pipework
