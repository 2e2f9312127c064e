import Mathlib.Data.List.Forall2
import Pipework.Emit.Github
import Pipework.Proofs.Lint.Blank

/-!
# The configuration of actions

The lines below the first of a step that uses an action are its configuration.  They are moved to
the left as far as the least indented one allows, and blank lines are left out, so that it does not
matter how far they were indented as a whole (`dedent_map_spaces`,
`Pipeline.Reindented.document_eq`).  Where they are indented with spaces, each keeps its distance
from the others (`keeps_dedent`).
-/

namespace Pipework

open Text Layout
open Lint (Begins spaces)

/-! ## Lines put together -/

namespace Text

/-- Lines with line feeds between them. -/
def joined (written : List (List Char)) : List Char := ['\n'].intercalate written

lemma joined_singleton (line : List Char) : joined [line] = line := List.intercalate_singleton

/-- A text on one line: it has neither a line feed nor a carriage return. -/
def IsLine (line : List Char) : Prop := '\n' ∉ line ∧ '\r' ∉ line

instance (line : List Char) : Decidable (IsLine line) :=
  inferInstanceAs (Decidable ('\n' ∉ line ∧ '\r' ∉ line))

lemma dropReturn_eq_self {line : List Char} (h : '\r' ∉ line) : dropReturn line = line := by
  unfold dropReturn
  rw [if_neg fun hlast => h (List.mem_of_getLast? hlast)]

lemma lines_joined_cons {first next : List Char} (h : IsLine first) (rest : List (List Char)) :
    lines (joined (first :: next :: rest)) = first :: lines (joined (next :: rest)) := by
  have hjoined : joined (first :: next :: rest) = first ++ '\n' :: joined (next :: rest) := by
    simp [joined, List.intercalate_cons_cons]
  rw [hjoined, lines_append_newline h.1, dropReturn_eq_self h.2]

/-- No line that is not blank is lost, and none is added. -/
lemma filter_lines_joined {written : List (List Char)} (h : ∀ line ∈ written, IsLine line) :
    (lines (joined written)).filter (!isBlank ·) = written.filter (!isBlank ·) := by
  induction written with
  | nil => rfl
  | cons first rest ih =>
    obtain ⟨hfirst, hrest⟩ := List.forall_mem_cons.1 h
    cases rest with
    | nil =>
      rw [joined_singleton, lines_of_notMem hfirst.1]
      split
      case isTrue hnil =>
        rw [hnil]
        rfl
      case isFalse => rfl
    | cons next rest =>
      rw [lines_joined_cons hfirst]
      show List.filter _ ([first] ++ _) = List.filter _ ([first] ++ _)
      rw [List.filter_append, List.filter_append, ih hrest]

lemma headD_lines_joined {first : List Char} (h : IsLine first) (rest : List (List Char)) :
    (lines (joined (first :: rest))).headD [] = first := by
  cases rest with
  | nil =>
    rw [joined_singleton, lines_of_notMem h.1]
    split
    case isTrue hnil => exact hnil.symm
    case isFalse => rfl
  | cons next rest => rw [lines_joined_cons h, List.headD_cons]

lemma filter_tail_lines_joined {first : List Char} {rest : List (List Char)} (h : IsLine first)
    (hrest : ∀ line ∈ rest, IsLine line) :
    (lines (joined (first :: rest))).tail.filter (!isBlank ·) = rest.filter (!isBlank ·) := by
  cases rest with
  | nil =>
    rw [joined_singleton, lines_of_notMem h.1]
    split <;> rfl
  | cons next rest => rw [lines_joined_cons h, List.tail_cons, filter_lines_joined hrest]

end Text

namespace Emit.Github

/-! ## Margins -/

lemma margin_spaces (k : Nat) (line : List Char) :
    margin (spaces k ++ line) = k + margin line := by
  induction k with
  | zero => rw [Nat.zero_add]; rfl
  | succ k ih =>
    have hstep : margin (' ' :: (spaces k ++ line)) = 1 + margin (spaces k ++ line) := by
      rw [margin, List.takeWhile_cons_of_pos (by decide), byteCount]
      rfl
    show margin (' ' :: (spaces k ++ line)) = _
    rw [hstep, ih]
    omega

lemma trimStart_spaces (k : Nat) (line : List Char) :
    trimStart (spaces k ++ line) = trimStart line := by
  induction k with
  | zero => rfl
  | succ k ih =>
    show trimStart (' ' :: (spaces k ++ line)) = _
    rw [trimStart, List.dropWhile_cons_of_pos (by decide)]
    exact ih

/-- Of the whole line only what is left of it without white space at its start counts. -/
lemma dropBytes_congr {line line' : List Char} (h : trimStart line = trimStart line') (width : Nat)
    (rest : List Char) : dropBytes line width rest = dropBytes line' width rest := by
  induction width, rest using dropBytes.induct with
  | case1 rest => rw [dropBytes, dropBytes]
  | case2 width => rw [dropBytes, dropBytes, h]
  | case3 width c rest hle ih => rw [dropBytes, dropBytes, if_pos hle, if_pos hle, ih]
  | case4 width c rest hle => rw [dropBytes, dropBytes, if_neg hle, if_neg hle, h]

/-- Spaces are cut off byte by byte. -/
lemma dropBytes_spaces (line rest : List Char) (k width : Nat) :
    dropBytes line (k + width) (spaces k ++ rest) = dropBytes line width rest := by
  induction k with
  | zero => rw [Nat.zero_add]; rfl
  | succ k ih =>
    show dropBytes line (k + 1 + width) (' ' :: (spaces k ++ rest)) = _
    have hspace : ' '.utf8Size ≤ k + width + 1 := Nat.le_add_left 1 _
    rw [Nat.add_right_comm, dropBytes, if_pos hspace]
    exact ih

/-! ## Lines moved as a whole -/

lemma min?_map_add (k : Nat) (ns : List Nat) : (ns.map (k + ·)).min? = ns.min?.map (k + ·) := by
  induction ns with
  | nil => rfl
  | cons n ns ih =>
    rw [List.map_cons, List.min?_cons, List.min?_cons, ih]
    cases ns.min? with
    | none => rfl
    | some m => simp [Nat.add_min_add_left]

/-- It does not count how far all lines are indented together. -/
lemma dedent_map_spaces (k : Nat) (config : List (List Char)) :
    dedent (config.map (spaces k ++ ·)) = dedent config := by
  have hmargins : (config.map (spaces k ++ ·)).map margin = (config.map margin).map (k + ·) := by
    rw [List.map_map, List.map_map]
    exact List.map_congr_left fun line _ => margin_spaces k line
  unfold dedent
  rw [hmargins, min?_map_add]
  cases config with
  | nil => rfl
  | cons first rest =>
    cases hmin : ((first :: rest).map margin).min? with
    | none => simp at hmin
    | some width =>
      rw [List.map_map]
      refine List.map_congr_left fun line _ => ?_
      show dropBytes (spaces k ++ line) (k + width) (spaces k ++ line) = dropBytes line width line
      rw [dropBytes_spaces, dropBytes_congr (trimStart_spaces k line)]

/-! ## Lines indented with spaces -/

lemma margin_of_begins {body : List Char} (h : Begins body) (n : Nat) :
    margin (spaces n ++ body) = n := by
  obtain ⟨c, rest, rfl, hc⟩ := h
  rw [margin_spaces, margin, List.takeWhile_cons_of_neg (by simp [hc])]
  rfl

/-- What is cut off is the indentation of the least indented line. -/
lemma exists_width (config : List (List Char)) : ∃ width,
    dedent config = config.map (fun line => dropBytes line width line) ∧
      (∀ line ∈ config, width ≤ margin line) ∧
      (config ≠ [] → ∃ line ∈ config, margin line = width) := by
  cases hmin : (config.map margin).min? with
  | none =>
    obtain rfl : config = [] := by simpa using hmin
    exact ⟨0, rfl, List.forall_mem_nil _, fun h => absurd rfl h⟩
  | some width =>
    obtain ⟨hmem, hleast⟩ := List.min?_eq_some_iff.1 hmin
    refine ⟨width, by rw [dedent, hmin]; rfl, fun line hline => ?_, fun _ => ?_⟩
    · exact hleast _ (List.mem_map_of_mem hline)
    · obtain ⟨line, hline, heq⟩ := List.mem_map.1 hmem
      exact ⟨line, hline, heq⟩

/-- Lines that are indented with spaces lose the same number of them and nothing else, and one of
them loses all. -/
lemma exists_moved {config : List (List Char)}
    (h : ∀ line ∈ config, ∃ n body, Begins body ∧ line = spaces n ++ body) :
    ∃ width, dedent config = config.map (fun line => dropBytes line width line) ∧
      (∀ line ∈ config, ∃ n body, Begins body ∧ line = spaces (width + n) ++ body ∧
        dropBytes line width line = spaces n ++ body) ∧
      (config ≠ [] → ∃ line ∈ config, Begins (dropBytes line width line)) := by
  obtain ⟨width, hdedent, hleast, hattained⟩ := exists_width config
  have hline : ∀ line ∈ config, ∃ n body, Begins body ∧ line = spaces (width + n) ++ body ∧
      dropBytes line width line = spaces n ++ body := by
    intro line hmem
    obtain ⟨indent, body, hbody, rfl⟩ := h line hmem
    have hle := hleast _ hmem
    rw [margin_of_begins hbody] at hle
    obtain ⟨n, rfl⟩ := Nat.exists_eq_add_of_le hle
    have hsplit : spaces (width + n) = spaces width ++ spaces n := List.replicate_add ..
    have hcut := dropBytes_spaces (spaces (width + n) ++ body) (spaces n ++ body) width 0
    rw [Nat.add_zero, ← List.append_assoc, ← hsplit, dropBytes] at hcut
    exact ⟨n, body, hbody, rfl, hcut⟩
  refine ⟨width, hdedent, hline, fun hne => ?_⟩
  obtain ⟨line, hmem, heq⟩ := hattained hne
  obtain ⟨n, body, hbody, hwritten, hmoved⟩ := hline line hmem
  have hn : n = 0 := by
    rw [hwritten, margin_of_begins hbody] at heq
    omega
  refine ⟨line, hmem, ?_⟩
  rw [hmoved, hn]
  exact hbody

/-! ## The lines of a step -/

/-- The lines of a step in front of its script or action. -/
def stepHead (s : Step) : List Layout.Line :=
  value 3 "- name" s.name ::
    ((s.condition.map (value 4 "if")).toList ++
      (if s.continueOnError == some true then [plain 4 "continue-on-error" "true"] else []))

end Emit.Github

open Emit.Github

/-- The step uses an action: it is named in the first line of the content, and the other lines are
its configuration. -/
structure Step.Configured (s : Step) (first : List Char) (rest : List (List Char)) : Prop where
  kind : s.kind = .uses
  content : s.content.toList = joined (first :: rest)
  isLine : ∀ line ∈ first :: rest, IsLine line

namespace Step.Configured

variable {s : Step} {first : List Char} {rest : List (List Char)} (h : s.Configured first rest)

include h

/-- The action is written without white space around it, and then its configuration without blank
lines. -/
lemma usesLines_eq : usesLines s.content.toList =
    entry 4 "uses".toList (trim first) ::
      (dedent (rest.filter (!isBlank ·))).map (⟨4, ·⟩) := by
  obtain ⟨hfirst, hrest⟩ := List.forall_mem_cons.1 h.isLine
  have haction := headD_lines_joined hfirst rest
  have hconfig := filter_tail_lines_joined hfirst hrest
  rw [h.content]
  simp only [usesLines, haction, hconfig]

lemma stepLines_eq : stepLines s = stepHead s ++ usesLines s.content.toList := by
  rw [stepLines, h.kind, stepHead, List.cons_append]

end Step.Configured

/-! ## Configurations indented otherwise -/

/-- Lines of configuration are moved to the right by `k` spaces as a whole, and blank lines are put
in; those that were there stay as they are. -/
inductive Shifted (k : Nat) : List (List Char) → List (List Char) → Prop where
  | nil : Shifted k [] []
  | line {line : List Char} {rest rest' : List (List Char)} (hline : isBlank line = false)
    (h : Shifted k rest rest') : Shifted k (line :: rest) ((spaces k ++ line) :: rest')
  | blank {line : List Char} {rest rest' : List (List Char)} (hline : isBlank line = true)
    (h : Shifted k rest rest') : Shifted k (line :: rest) (line :: rest')
  | insert {line : List Char} {rest rest' : List (List Char)} (hline : isBlank line = true)
    (hone : IsLine line) (h : Shifted k rest rest') : Shifted k rest (line :: rest')

namespace Shifted

variable {k : Nat} {rest rest' : List (List Char)}

lemma isLine (h : Shifted k rest rest') (hrest : ∀ line ∈ rest, IsLine line) :
    ∀ line ∈ rest', IsLine line := by
  induction h with
  | nil => exact hrest
  | @line line rest rest' hline _ ih =>
    obtain ⟨hfirst, hrest⟩ := List.forall_mem_cons.1 hrest
    refine List.forall_mem_cons.2 ⟨?_, ih hrest⟩
    constructor
    · simpa [spaces] using hfirst.1
    · simpa [spaces] using hfirst.2
  | blank hline _ ih =>
    obtain ⟨hfirst, hrest⟩ := List.forall_mem_cons.1 hrest
    exact List.forall_mem_cons.2 ⟨hfirst, ih hrest⟩
  | insert hline hone _ ih => exact List.forall_mem_cons.2 ⟨hone, ih hrest⟩

/-- The lines that are not blank are those from before, all further right. -/
lemma filter_eq (h : Shifted k rest rest') :
    rest'.filter (!isBlank ·) = (rest.filter (!isBlank ·)).map (spaces k ++ ·) := by
  induction h with
  | nil => rfl
  | @line line rest rest' hline _ ih =>
    have hshifted : isBlank (spaces k ++ line) = false := by
      rw [isBlank, List.all_append, ← isBlank, ← isBlank, hline, Bool.and_false]
    rw [List.filter_cons_of_pos (by simp [hshifted]), List.filter_cons_of_pos (by simp [hline]), ih,
      List.map_cons]
  | blank hline _ ih =>
    rw [List.filter_cons_of_neg (by simp [hline]), List.filter_cons_of_neg (by simp [hline]), ih]
  | insert hline _ _ ih => rw [List.filter_cons_of_neg (by simp [hline]), ih]

end Shifted

/-- A step as it was, or with its configuration indented otherwise. -/
inductive Step.Reindented : Step → Step → Prop where
  | same (s : Step) : Reindented s s
  | shifted {s : Step} {first : List Char} {rest rest' : List (List Char)} {k : Nat}
    (h : s.Configured first rest) (hshifted : Shifted k rest rest') :
    Reindented s { s with content := String.ofList (joined (first :: rest')) }

/-- A job whose steps may have their configurations indented otherwise. -/
inductive Job.Reindented : Job → Job → Prop where
  | steps {job : Job} {steps' : List Step} (h : List.Forall₂ Step.Reindented job.steps steps') :
    Reindented job { job with steps := steps' }

/-- A pipeline whose steps may have their configurations indented otherwise. -/
inductive Pipeline.Reindented : Pipeline → Pipeline → Prop where
  | jobs {p : Pipeline} {jobs' : List Job} (h : List.Forall₂ Job.Reindented p.jobs jobs') :
    Reindented p { p with jobs := jobs' }

lemma Step.Reindented.stepLines_eq {s s' : Step} (h : s.Reindented s') :
    stepLines s' = stepLines s := by
  cases h with
  | same => rfl
  | @shifted first rest rest' k h hshifted =>
    obtain ⟨hfirst, hrest⟩ := List.forall_mem_cons.1 h.isLine
    have h' : Step.Configured { s with content := String.ofList (joined (first :: rest')) } first
        rest' := by
      refine ⟨h.kind, String.toList_ofList .., ?_⟩
      exact List.forall_mem_cons.2 ⟨hfirst, hshifted.isLine hrest⟩
    rw [h'.stepLines_eq, h'.usesLines_eq, h.stepLines_eq, h.usesLines_eq, hshifted.filter_eq,
      dedent_map_spaces]
    rfl

/-- What is written for each part is the same, and so is what is written for all. -/
lemma flatMap_eq_of_forall₂ {α : Type} {R : α → α → Prop} {f : α → List Layout.Line}
    {xs ys : List α} (h : List.Forall₂ R xs ys) (hf : ∀ x y, R x y → f y = f x) :
    ys.flatMap f = xs.flatMap f := by
  induction h with
  | nil => rfl
  | cons hxy _ ih => rw [List.flatMap_cons, List.flatMap_cons, hf _ _ hxy, ih]

lemma Job.Reindented.jobLines_eq {job job' : Job} (h : job.Reindented job') :
    jobLines job' = jobLines job := by
  cases h with
  | steps h =>
    have hsteps := flatMap_eq_of_forall₂ h fun s s' hs => hs.stepLines_eq
    simp only [jobLines, hsteps]
    rfl

lemma Pipeline.Reindented.document_eq {p p' : Pipeline} (h : p.Reindented p')
    (style : TagPush) : document style p' = document style p := by
  cases h with
  | jobs h =>
    have hjobs := flatMap_eq_of_forall₂ h fun job job' hjob => hjob.jobLines_eq
    simp only [document, hjobs]

/-! ## What is written -/

namespace Emit.Github

/-- The written lines are those of the configuration with eight spaces in the place of one margin
that all have in common, and one of the lines has no further spaces in front. -/
structure Keeps (config written : List (List Char)) : Prop where
  exists_margin : ∃ margin, List.Forall₂ (fun line line' => ∃ n body, Begins body ∧
    line = spaces (margin + n) ++ body ∧ line' = spaces (8 + n) ++ body) config written
  least : config ≠ [] → ∃ line ∈ written, ∃ body, Begins body ∧ line = spaces 8 ++ body

lemma keeps_dedent {config : List (List Char)}
    (h : ∀ line ∈ config, ∃ n body, Begins body ∧ line = spaces n ++ body) :
    Keeps config ((dedent config).map (spaces 8 ++ ·)) := by
  obtain ⟨width, hdedent, hline, hleast⟩ := exists_moved h
  rw [hdedent, List.map_map]
  constructor
  case exists_margin =>
    refine ⟨width, List.forall₂_map_right_iff.2 (List.forall₂_same.2 fun line hmem => ?_)⟩
    obtain ⟨n, body, hbody, hwritten, hmoved⟩ := hline line hmem
    refine ⟨n, body, hbody, hwritten, ?_⟩
    have hsplit : spaces (8 + n) = spaces 8 ++ spaces n := List.replicate_add ..
    rw [Function.comp_apply, hmoved, hsplit, List.append_assoc]
  case least =>
    intro hne
    obtain ⟨line, hmem, hbegins⟩ := hleast hne
    exact ⟨_, List.mem_map_of_mem hmem, _, hbegins, rfl⟩

/-- None of the lines becomes empty. -/
lemma ne_nil_of_mem_dedent {config : List (List Char)}
    (h : ∀ line ∈ config, ∃ n body, Begins body ∧ line = spaces n ++ body) :
    ∀ moved ∈ dedent config, moved ≠ [] := by
  obtain ⟨width, hdedent, hline, -⟩ := exists_moved h
  rw [hdedent]
  intro moved hmem
  obtain ⟨line, hconfig, rfl⟩ := List.mem_map.1 hmem
  obtain ⟨n, body, ⟨c, rest, rfl, -⟩, -, hmoved⟩ := hline line hconfig
  simp [hmoved]

/-- An action and its configuration as they are written. -/
lemma write_usesLines {s : Step} {first : List Char} {rest : List (List Char)}
    (h : s.Configured first rest)
    (hne : ∀ moved ∈ dedent (rest.filter (!isBlank ·)), moved ≠ []) :
    write (usesLines s.content.toList) = ended (("        uses: ".toList ++ trim first) ::
      (dedent (rest.filter (!isBlank ·))).map (spaces 8 ++ ·)) := by
  have hconfig : ∀ moved ∈ dedent (rest.filter (!isBlank ·)),
      (⟨4, moved⟩ : Layout.Line).write = (spaces 8 ++ moved) ++ ['\n'] := by
    intro moved hmem
    rw [Layout.Line.write, if_neg (by simpa using hne moved hmem)]
    rfl
  rw [h.usesLines_eq, write, List.flatMap_cons, List.flatMap_map, List.flatMap_congr hconfig, ended,
    List.flatMap_cons, List.flatMap_map]
  rfl

lemma infix_flatMap {α : Type} {x : α} {xs : List α} (h : x ∈ xs) (f : α → List Layout.Line) :
    f x <:+: xs.flatMap f := by
  obtain ⟨front, back, rfl⟩ := List.append_of_mem h
  refine ⟨front.flatMap f, back.flatMap f, ?_⟩
  rw [List.flatMap_append, List.flatMap_cons, List.append_assoc]

/-- The lines of a step stand in the workflow. -/
lemma stepLines_infix {p : Pipeline} {job : Job} {s : Step} (hjob : job ∈ p.jobs)
    (hs : s ∈ job.steps) (style : TagPush) : stepLines s <:+: document style p := by
  have hsteps : job.steps.flatMap stepLines <:+: jobLines job := by
    unfold jobLines
    apply List.infix_cons
    exact (List.suffix_append _ _).isInfix.trans (List.prefix_append _ _).isInfix
  have hjobs : p.jobs.flatMap jobLines <:+: document style p := by
    unfold document
    exact (List.suffix_cons _ _).isInfix.trans (List.suffix_append _ _).isInfix
  exact (infix_flatMap hs _).trans (hsteps.trans ((infix_flatMap hjob _).trans hjobs))

/-- It does not matter how far the configuration of an action is indented as a whole, nor where
blank lines stand in it: the same text is written.  And where it is indented with spaces, its lines
that are not blank are written in their order, behind the line of the action: each keeps what it has
behind its spaces, all lose or win the same number of spaces, and the least indented one has eight
then. -/
theorem github_configuration (style : TagPush) (p : Pipeline) :
    (∀ p', p.Reindented p' → github style p' = github style p) ∧
      ∀ job ∈ p.jobs, ∀ s ∈ job.steps, ∀ first rest, s.Configured first rest →
        (∀ line ∈ rest, isBlank line = false →
          ∃ n body, Begins body ∧ line = spaces n ++ body) →
        ∃ front back written,
          document style p = front ++ stepLines s ++ back ∧
            (github style p).toList = write front ++ write (stepHead s) ++
              ended (("        uses: ".toList ++ trim first) :: written) ++ write back ∧
            Keeps (rest.filter (!isBlank ·)) written := by
  refine ⟨fun p' h => by rw [github, github, h.document_eq], ?_⟩
  intro job hjob s hs first rest hconfigured hspaces
  have hconfig : ∀ line ∈ rest.filter (!isBlank ·),
      ∃ n body, Begins body ∧ line = spaces n ++ body := by
    intro line hline
    obtain ⟨hmem, hblank⟩ := List.mem_filter.1 hline
    exact hspaces line hmem (by simpa using hblank)
  obtain ⟨front, back, hdocument⟩ := stepLines_infix hjob hs style
  refine ⟨front, back, _, hdocument.symm, ?_, keeps_dedent hconfig⟩
  rw [github, String.toList_ofList, ← hdocument, hconfigured.stepLines_eq,
    ← write_usesLines hconfigured (ne_nil_of_mem_dedent hconfig)]
  simp only [write, List.flatMap_append, List.append_assoc]

/-! ## An example -/

/-- An action whose configuration is indented as it stands in a workflow. -/
def setup : Step where
  kind := .uses
  content := "actions/setup-node@v4\n        with:\n          node-version: 22"

/-- The same with three more spaces in front of the configuration, and with blank lines in it. -/
def setupIndented : Step where
  kind := .uses
  content := "actions/setup-node@v4\n\n           with:\n \u00a0\n             node-version: 22"

/-- A pipeline of one step. -/
def pipelineOf (s : Step) : Pipeline := { jobs := [{ name := "build", steps := [s] }] }

lemma configured_setup : setup.Configured "actions/setup-node@v4".toList
    ["        with:".toList, "          node-version: 22".toList] where
  kind := rfl
  content := by decide
  isLine := by decide

lemma reindented_setup : (pipelineOf setup).Reindented (pipelineOf setupIndented) := by
  have hshifted : Shifted 3 ["        with:".toList, "          node-version: 22".toList]
      [[], "           with:".toList, " \u00a0".toList, "             node-version: 22".toList] :=
    .insert (by decide) (by decide) (.line (by decide) (.insert (by decide) (by decide)
      (.line (by decide) .nil)))
  have hstep : setup.Reindented setupIndented := .shifted configured_setup hshifted
  exact .jobs (.cons (.steps (.cons hstep .nil)) .nil)

theorem github_configuration_setup :
    (pipelineOf setup).Reindented (pipelineOf setupIndented) ∧
      github .merged (pipelineOf setupIndented) = github .merged (pipelineOf setup) ∧
      ∃ front back written,
        document .merged (pipelineOf setup) = front ++ stepLines setup ++ back ∧
          (github .merged (pipelineOf setup)).toList = write front ++ write (stepHead setup) ++
            ended ("        uses: actions/setup-node@v4".toList :: written) ++ write back ∧
          Keeps ["        with:".toList, "          node-version: 22".toList] written := by
  obtain ⟨hsame, hkeeps⟩ := github_configuration .merged (pipelineOf setup)
  have hspaces : ∀ line ∈ ["        with:".toList, "          node-version: 22".toList],
      isBlank line = false → ∃ n body, Begins body ∧ line = spaces n ++ body := by
    refine List.forall_mem_cons.2 ⟨?_, List.forall_mem_singleton.2 ?_⟩
    · exact fun _ => ⟨8, "with:".toList, ⟨'w', _, rfl, by decide⟩, by decide⟩
    · exact fun _ => ⟨10, "node-version: 22".toList, ⟨'n', _, rfl, by decide⟩, by decide⟩
  refine ⟨reindented_setup, hsame _ reindented_setup, ?_⟩
  exact hkeeps _ List.mem_cons_self setup List.mem_cons_self _ _ configured_setup hspaces

end Emit.Github

end Pipework
