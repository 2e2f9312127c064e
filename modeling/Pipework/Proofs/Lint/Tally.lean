import Mathlib.Algebra.GroupWithZero.Nat
import Mathlib.Data.List.TakeWhile
import Pipework.Proofs.Lint.Stages
import Pipework.Proofs.Text.Parts

/-!
# Counting jobs and steps

The linter counts the jobs and the steps of a document by their lines.  `Quiet level keys` says of a
line that it adds nothing to these counts: it is no part of the document's structure, or it begins
no step and stands at `level` or further right.  `Tally level jobs steps doc` says how many jobs and
steps are counted in a part of a document, wherever no block scalar reaches `level`.  It composes
over the parts, so that the counts of a document with `jobs:` are those of the lines below this key
(`Tally.stats_report`).

Without that key the linter counts the keys that are not indented (`headings`).
-/

namespace Pipework.Lint

open Text Layout

/-! ## Lines that add nothing -/

/-- Whether a line counts as the name of a job, below `jobs:`. -/
def opensJob (l : Line) : Bool := l.indent == 2 && l.isBareKey

/-- A line that begins no step, stands at `level` or further right, and has no other key than one of
`keys` if it is not indented; or one that is no part of the document's structure. -/
structure Quiet (level : Nat) (keys : List (List Char)) (l : Line) : Prop where
  step : l.isStructural = true → opensStep l = false
  deep : l.isStructural = true → level * levelWidth ≤ l.indent
  top : l.isTopLevel = true → ∀ key ∈ l.key?, key ∈ keys

lemma quiet_of_not_isStructural {level : Nat} {keys : List (List Char)} {l : Line}
    (h : l.isStructural = false) : Quiet level keys l where
  step := by simp [h]
  deep := by simp [h]
  top := by simp [Line.isTopLevel, h]

lemma opensStep_eq_false {l : Line} (h : l.trimmed.head? ≠ some '-') : opensStep l = false := by
  unfold opensStep
  split
  · rename_i rest heq
    rw [heq] at h
    exact absurd rfl h
  · rfl

/-- A line with a key in front is no entry of a list. -/
lemma head?_trim_shown {name key behind : List Char} {l : Layout.Line} (hkey : KeyOf name key)
    (hname : isIdentifier name = true) (htext : l.text = key ++ ':' :: behind) :
    (trim l.shown).head? ≠ some '-' := by
  have hentry : IsEntry name behind l.text := htext ▸ .plain hkey
  obtain ⟨c, rest, rfl, hdash⟩ := hkey.exists_cons hname
  rw [trim_shown (hentry.begins hname), htext, List.cons_append,
    trim_cons (hkey.inert hname c List.mem_cons_self).1]
  simpa using hdash

/-- A key with lines below it opens a block. -/
lemma isBareKey_standing {level : Nat} {name key : List Char} (hkey : KeyOf name key)
    (hname : isIdentifier name = true) : (standing (Layout.key level key)).isBareKey = true := by
  have hkeyed : Keyed name [] (Layout.key level key) := .opens hname hkey
  have hdash : ['-', ' '].isPrefixOf (trim (Layout.key level key).shown) = false := by
    have hhead := head?_trim_shown (l := Layout.key level key) hkey hname rfl
    cases htrim : trim (Layout.key level key).shown with
    | nil => rfl
    | cons c rest =>
      rw [htrim, List.head?_cons, ne_eq, Option.some.injEq] at hhead
      simp [List.isPrefixOf, Ne.symm hhead]
  rw [Line.isBareKey, Line.value?, standing, hkeyed.keyAndRest?_eq 0]
  show (_ && !(['-', ' '].isPrefixOf (trim (Layout.key level key).shown))) = true
  rw [hdash]
  rfl

namespace Holds

variable {level level' : Nat} {keys : List (List Char)} {name key behind value : List Char}
  {l : Layout.Line} {doc : List Layout.Line}

lemma quiet_blank : Holds (Quiet level keys) [Layout.blank] := by
  refine .line (by decide) fun n inBlock => quiet_of_not_isStructural ?_
  cases inBlock <;> rfl

/-- A line that begins no step. -/
lemma quiet (hbegins : Begins l.text) (hfeed : '\n' ∉ l.text)
    (hstep : ∀ n inBlock, opensStep (scanned n l.shown inBlock) = false) (hlevel : level ≤ l.level)
    (htop : l.level = 0 → ∀ n, ∀ key ∈ (scanned n l.shown false).key?, key ∈ keys) :
    Holds (Quiet level keys) [l] := by
  refine .line hfeed fun n inBlock => ⟨fun _ => hstep n inBlock, fun _ => ?_, fun h => ?_⟩
  · show level * levelWidth ≤ leadingSpaces l.shown
    rw [leadingSpaces_shown hbegins]
    exact Nat.mul_le_mul_right _ hlevel
  · simp only [Line.isTopLevel, Line.isStructural, scanned, leadingSpaces_shown hbegins,
      levelWidth, Bool.and_eq_true, Bool.not_eq_true', beq_iff_eq] at h
    obtain ⟨⟨-, rfl⟩, hindent⟩ := h
    exact htop (by omega) n

/-- A line that is an entry without a dash in front. -/
lemma quiet_text (hkey : KeyOf name key) (hname : isIdentifier name = true)
    (htext : l.text = key ++ ':' :: behind) (hbehind : Behind behind) (hfeed : '\n' ∉ behind)
    (hlevel : level ≤ l.level) (htop : l.level = 0 → name ∈ keys) :
    Holds (Quiet level keys) [l] := by
  have hentry : IsEntry name behind l.text := htext ▸ .plain hkey
  have hbegins := hentry.begins hname
  refine .quiet hbegins ?_ (fun n inBlock => ?_) hlevel fun hzero n => ?_
  · rw [htext, List.mem_append, List.mem_cons, not_or, not_or]
    exact ⟨(hkey.oneLine hname).noFeed, by decide, hfeed⟩
  · exact opensStep_eq_false (head?_trim_shown hkey hname htext)
  · rw [Line.key?, hentry.keyAndRest?_eq hname hbehind (trim_shown hbegins) rfl]
    simpa using htop hzero

/-- A key with lines below it. -/
lemma quiet_key (hkey : KeyOf name key) (hname : isIdentifier name = true) (hlevel : level ≤ level')
    (htop : level' = 0 → name ∈ keys) : Holds (Quiet level keys) [Layout.key level' key] :=
  .quiet_text hkey hname rfl behind_nil List.not_mem_nil hlevel htop

/-- A key with its value. -/
lemma quiet_entry (hkey : KeyOf name key) (hname : isIdentifier name = true) (hvalue : '\n' ∉ value)
    (hlevel : level ≤ level') (htop : level' = 0 → name ∈ keys) :
    Holds (Quiet level keys) [Layout.entry level' key value] :=
  .quiet_text hkey hname rfl (behind_space value) (by simpa using hvalue) hlevel htop

/-- A script with its key. -/
lemma quiet_block {content : List Char} (hkey : KeyOf name key) (hname : isIdentifier name = true)
    (hopen : ∀ mark ∈ [['|'], ['|', '2']], opensBlock (trim (key ++ ':' :: ' ' :: mark)) = true)
    (hlevel : level ≤ level') (htop : level' = 0 → name ∈ keys) :
    Holds (Quiet level keys) (Layout.block level' key content) := by
  have hmark : blockMark (Text.lines content) ∈ [['|'], ['|', '2']] := by
    unfold blockMark
    split
    · decide
    · decide
  have hfeed : '\n' ∉ blockMark (Text.lines content) := by
    revert hmark
    generalize blockMark (Text.lines content) = mark
    simp only [List.mem_cons, List.not_mem_nil, or_false]
    rintro (rfl | rfl) <;> decide
  refine .block ((IsEntry.plain hkey).begins hname) (hopen _ hmark)
    (.quiet_entry hkey hname hfeed hlevel htop) ?_ ?_ ?_
  · exact List.forall_mem_map.2 fun line hline hmem => (mem_lines hline hmem).2 rfl
  · exact List.forall_mem_map.2 fun line _ => Nat.lt_succ_self level'
  · exact List.forall_mem_map.2 fun line _ n => quiet_of_not_isStructural (Bool.and_false _)

end Holds

/-- Keys that quiet lines have not do not stand in front. -/
lemma Holds.not_hasKey {keys : List (List Char)} {doc : List Layout.Line} {name : String}
    (h : Holds (Quiet 0 keys) doc) (hname : name.toList ∉ keys) (n : Nat) (parent : Option Nat) :
    ∀ l ∈ scanFrom n parent (doc.map Layout.Line.shown),
      (l.isTopLevel && l.hasKey name) = false := by
  intro l hl
  rw [Bool.and_eq_false_imp]
  intro htop
  rw [Line.hasKey, beq_eq_false_iff_ne]
  intro hkey
  exact hname ((h.all n parent l hl).top htop _ hkey)

/-! ## A key that is not indented -/

section Opening

variable {name : String} {front doc : List Layout.Line}

lemma opening_isTopLevel (hname : isIdentifier name.toList = true) (n : Nat) :
    ((scanned n (opening 0 name).shown false).isTopLevel &&
      (scanned n (opening 0 name).shown false).hasKey name) = true := by
  have hkeyed : Keyed name.toList [] (opening 0 name) := .opens hname .plain
  rw [Line.hasKey, Line.key?, hkeyed.keyAndRest?_eq n, Bool.and_eq_true]
  exact ⟨hkeyed.isTopLevel_eq_true rfl, beq_self_eq_true _⟩

/-- The key is met outside of all blocks and begins none, so that no block reaches behind it. -/
lemma scan_opening (hname : isIdentifier name.toList = true)
    (hfront : ∀ l ∈ front, '\n' ∉ l.text) (hdoc : ∀ l ∈ doc, '\n' ∉ l.text) :
    scan (write (front ++ opening 0 name :: doc)) =
      scanFrom 1 none (front.map Layout.Line.shown) ++
        scanned (1 + front.length) (opening 0 name).shown false ::
          scanFrom (1 + front.length + 1) none (doc.map Layout.Line.shown) := by
  have hkeyed : Keyed name.toList [] (opening 0 name) := .opens hname .plain
  have hfeed : ∀ l ∈ front ++ opening 0 name :: doc, '\n' ∉ l.text :=
    List.forall_mem_append.2 ⟨hfront, List.forall_mem_cons.2 ⟨hkeyed.noFeed, hdoc⟩⟩
  have hnext : ∀ parent, nextParent parent (opening 0 name).shown = none := by
    intro parent
    rw [Flush.nextParent_eq hkeyed.begins (outside_zero parent),
      hkeyed.entry.opensBlock_eq_false hkeyed.name]
    rfl
  rw [scan, lines_write hfeed, List.map_append, List.map_cons, scanFrom_append, scanFrom_cons,
    (outside_zero _).inBody_eq_false hkeyed.begins, hnext, List.length_map]

end Opening

/-! ## Blocks that do not reach a level -/

/-- Structural lines at a level or further right open no block that reaches the level. -/
lemma Outside.foldl {level : Nat} {raws : List (List Char)} {parent : Option Nat} {n : Nat}
    (hdeep : ∀ l ∈ scanFrom n parent raws, l.isStructural = true → level * levelWidth ≤ l.indent)
    (h : Outside level parent) : Outside level (raws.foldl nextParent parent) := by
  induction raws generalizing n parent with
  | nil => exact h
  | cons raw raws ih =>
    rw [scanFrom_cons, List.forall_mem_cons] at hdeep
    obtain ⟨hraw, hraws⟩ := hdeep
    refine ih hraws ?_
    unfold nextParent
    split
    case isTrue => exact h
    case isFalse hin =>
      split
      case isFalse => exact outside_none level
      case isTrue hopen =>
        have hblank : (trim raw).isEmpty = false :=
          List.isEmpty_eq_false_iff.2 (ne_nil_of_opensBlock hopen)
        have hcomment : ((trim raw).head? == some '#') = false := by
          rw [opensBlock, Bool.and_eq_true] at hopen
          simpa using hopen.1
        have hstructural : (scanned n raw (inBody parent raw)).isStructural = true := by
          simp [Line.isStructural, Line.isBlank, Line.isComment, scanned, hblank, hcomment, hin]
        intro p hp
        rw [Option.mem_def, Option.some.injEq] at hp
        exact hp ▸ hraw hstructural

/-! ## Counts of a part of a document -/

/-- The jobs and steps that are counted in a part of a document that stands at `level` or further
right. -/
structure Tally (level jobs steps : Nat) (doc : List Layout.Line) : Prop where
  noFeed : ∀ l ∈ doc, '\n' ∉ l.text
  deep : ∀ n parent, Outside level parent →
    ∀ l ∈ scanFrom n parent (doc.map Layout.Line.shown),
      l.isStructural = true → level * levelWidth ≤ l.indent
  jobs_eq : ∀ n parent, Outside level parent →
    (scanFrom n parent (doc.map Layout.Line.shown)).countP
      (fun l => l.isStructural && opensJob l) = jobs
  steps_eq : ∀ n parent, Outside level parent →
    (scanFrom n parent (doc.map Layout.Line.shown)).countP
      (fun l => l.isStructural && opensStep l) = steps

/-- Below `jobs:` the structural lines that name jobs count. -/
lemma countJobs_append {front rest : List Line} {header : Line} (hfront : ∀ l ∈ front,
    (l.isTopLevel && l.hasKey "jobs") = false)
    (hheader : (header.isTopLevel && header.hasKey "jobs") = true)
    (hrest : ∀ l ∈ rest, l.isStructural = true → 0 < l.indent) :
    countJobs (front ++ header :: rest) = rest.countP fun l => l.isStructural && opensJob l := by
  have hall : (rest.filter Line.isStructural).takeWhile (fun l => 0 < l.indent) =
      rest.filter Line.isStructural := by
    rw [List.takeWhile_eq_self_iff]
    intro l hl
    obtain ⟨hmem, hstructural⟩ := List.mem_filter.1 hl
    exact decide_eq_true (hrest l hmem hstructural)
  rw [countJobs, dropWhile_header hfront hheader]
  simp only [hall, List.countP_filter]
  refine List.countP_congr fun l _ => ?_
  rw [Bool.and_comm]
  rfl

namespace Tally

variable {level level' jobs jobs' steps steps' : Nat} {l : Layout.Line}
  {front back doc : List Layout.Line}

lemma outside (h : Tally level jobs steps doc) {parent : Option Nat} (hout : Outside level parent) :
    Outside level ((doc.map Layout.Line.shown).foldl nextParent parent) :=
  .foldl (h.deep 1 parent hout) hout

lemma nil : Tally level 0 0 [] :=
  ⟨by simp, fun _ _ _ => by simp [scanFrom], fun _ _ _ => rfl, fun _ _ _ => rfl⟩

lemma append (hfront : Tally level jobs steps front) (hback : Tally level jobs' steps' back) :
    Tally level (jobs + jobs') (steps + steps') (front ++ back) where
  noFeed := List.forall_mem_append.2 ⟨hfront.noFeed, hback.noFeed⟩
  deep n parent hout := by
    rw [List.map_append, scanFrom_append, List.forall_mem_append]
    exact ⟨hfront.deep n parent hout, hback.deep _ _ (hfront.outside hout)⟩
  jobs_eq n parent hout := by
    rw [List.map_append, scanFrom_append, List.countP_append, hfront.jobs_eq n parent hout,
      hback.jobs_eq _ _ (hfront.outside hout)]
  steps_eq n parent hout := by
    rw [List.map_append, scanFrom_append, List.countP_append, hfront.steps_eq n parent hout,
      hback.steps_eq _ _ (hfront.outside hout)]

lemma flatMap {α : Type} {xs : List α} {f : α → List Layout.Line} (jobs steps : α → Nat)
    (h : ∀ x ∈ xs, Tally level (jobs x) (steps x) (f x)) :
    Tally level (xs.map jobs).sum (xs.map steps).sum (xs.flatMap f) := by
  induction xs with
  | nil => exact nil
  | cons x rest ih =>
    rw [List.flatMap_cons, List.map_cons, List.map_cons, List.sum_cons, List.sum_cons]
    exact (h x List.mem_cons_self).append (ih fun y hy => h y (List.mem_cons_of_mem _ hy))

/-- Quiet lines below the jobs count for nothing. -/
lemma quiet (h : Holds (Quiet level []) doc) (hlevel : 2 ≤ level) :
    Tally level 0 0 doc where
  noFeed := h.noFeed
  deep n parent _ l hl := (h.all n parent l hl).deep
  jobs_eq n parent _ := by
    refine List.countP_eq_zero.2 fun l hl => ?_
    rw [Bool.not_eq_true, Bool.and_eq_false_imp]
    intro hstructural
    have hdeep := (h.all n parent l hl).deep hstructural
    have hindent : (l.indent == 2) = false := by
      simp only [levelWidth] at hdeep
      rw [beq_eq_false_iff_ne]
      omega
    rw [opensJob, hindent, Bool.false_and]
  steps_eq n parent _ := by
    refine List.countP_eq_zero.2 fun l hl => ?_
    rw [Bool.not_eq_true, Bool.and_eq_false_imp]
    exact (h.all n parent l hl).step

/-- A line that is outside of blocks counts for what it is. -/
lemma line (hl : Begins l.text) (hfeed : '\n' ∉ l.text) :
    Tally l.level ((standing l).isStructural && opensJob (standing l)).toNat
      ((standing l).isStructural && opensStep (standing l)).toNat [l] where
  noFeed := List.forall_mem_singleton.2 hfeed
  deep n parent hout := by
    rw [List.map_singleton, scanFrom_cons, scanFrom, List.forall_mem_singleton]
    exact fun _ => Nat.le_of_eq (leadingSpaces_shown hl).symm
  jobs_eq n parent hout := by
    rw [List.map_singleton, scanFrom_cons, scanFrom, hout.inBody_eq_false hl,
      List.countP_singleton]
    exact (Bool.cond_eq_ite ..).symm
  steps_eq n parent hout := by
    rw [List.map_singleton, scanFrom_cons, scanFrom, hout.inBody_eq_false hl,
      List.countP_singleton]
    exact (Bool.cond_eq_ite ..).symm

/-- A line that opens no block scalar, with lines below it that are further right. -/
lemma under (hline : Tally l.level jobs steps [l]) (hl : Begins l.text)
    (hopen : opensBlock (trim l.text) = false) (hle : l.level ≤ level)
    (hdoc : Tally level jobs' steps' doc) :
    Tally l.level (jobs + jobs') (steps + steps') (l :: doc) := by
  have hnext : ∀ parent, Outside l.level parent →
      [l.shown].foldl nextParent parent = none := by
    intro parent hout
    rw [List.foldl_cons, List.foldl_nil, Flush.nextParent_eq hl hout, hopen]
    rfl
  have hscan : ∀ n parent, Outside l.level parent →
      scanFrom n parent ((l :: doc).map Layout.Line.shown) =
        scanFrom n parent ([l].map Layout.Line.shown) ++
          scanFrom (n + 1) none (doc.map Layout.Line.shown) := by
    intro n parent hout
    rw [← List.singleton_append, List.map_append, scanFrom_append, List.map_singleton,
      hnext parent hout]
    rfl
  refine ⟨List.forall_mem_cons.2 ⟨hline.noFeed l (List.mem_singleton_self l), hdoc.noFeed⟩,
    fun n parent hout => ?_, fun n parent hout => ?_, fun n parent hout => ?_⟩
  · rw [hscan n parent hout, List.forall_mem_append]
    refine ⟨hline.deep n parent hout, fun l' hl' hstructural => ?_⟩
    exact Nat.le_trans (Nat.mul_le_mul_right _ hle)
      (hdoc.deep _ _ (outside_none level) l' hl' hstructural)
  · rw [hscan n parent hout, List.countP_append, hline.jobs_eq n parent hout,
      hdoc.jobs_eq _ _ (outside_none level)]
  · rw [hscan n parent hout, List.countP_append, hline.steps_eq n parent hout,
      hdoc.steps_eq _ _ (outside_none level)]

/-- The counts of a whole document are those of the lines below `jobs:`. -/
theorem stats_report {keys : List (List Char)} (hfront : Holds (Quiet 0 keys) front)
    (hkeys : "jobs".toList ∉ keys) (hdoc : Tally 1 jobs steps doc) :
    (report (write (front ++ opening 0 "jobs" :: doc))).stats.jobs = jobs ∧
      (report (write (front ++ opening 0 "jobs" :: doc))).stats.steps = steps := by
  have hjobs : isIdentifier "jobs".toList = true := by decide
  have hscan := scan_opening hjobs hfront.noFeed hdoc.noFeed
  have hstats : (report (write (front ++ opening 0 "jobs" :: doc))).stats =
      stats (scan (write (front ++ opening 0 "jobs" :: doc))) := by
    have hbegins : ∃ l ∈ front ++ opening 0 "jobs" :: doc, Begins l.text :=
      ⟨_, List.mem_append_right _ List.mem_cons_self, 'j', _, rfl, by decide⟩
    rw [report, isBlank_write hbegins]
    rfl
  rw [hstats, hscan]
  constructor
  · refine (countJobs_append (hfront.not_hasKey hkeys 1 none) (opening_isTopLevel hjobs _)
      fun l hl hstructural => ?_).trans (hdoc.jobs_eq _ _ (outside_none 1))
    exact Nat.lt_of_lt_of_le Nat.two_pos (hdoc.deep _ _ (outside_none 1) l hl hstructural)
  · have hnone : (scanFrom 1 none (front.map Layout.Line.shown)).countP
        (fun l => l.isStructural && opensStep l) = 0 := by
      refine List.countP_eq_zero.2 fun l hl => ?_
      rw [Bool.not_eq_true, Bool.and_eq_false_imp]
      exact (hfront.all 1 none l hl).step
    show List.countP _ _ = steps
    rw [List.countP_append, List.countP_cons, hnone, hdoc.steps_eq _ _ (outside_none 1),
      Nat.zero_add]
    rfl

end Tally

/-! ## Keys that name jobs -/

/-- The keys that are not indented, open a block and name a job. -/
def headings (lines : List Line) : Nat :=
  lines.countP fun l => l.isTopLevel && l.isBareKey && l.key?.any namesJob

lemma headings_append (front back : List Line) :
    headings (front ++ back) = headings front + headings back :=
  List.countP_append

lemma headings_bare (lines : List Line) : headings (lines.map Line.bare) = headings lines := by
  have hheading : (fun l : Line => l.isTopLevel && l.isBareKey && l.key?.any namesJob) ∘ Line.bare =
      fun l => l.isTopLevel && l.isBareKey && l.key?.any namesJob := by
    funext l
    simp
  rw [headings, List.countP_map, hheading, headings]

/-- Keys of the format itself are no headings. -/
lemma headings_eq_zero {lines : List Line} (h : ∀ key ∈ topKeys lines, namesJob key = false) :
    headings lines = 0 := by
  refine List.countP_eq_zero.2 fun l hl hheading => ?_
  rw [Bool.and_eq_true, Bool.and_eq_true, Option.any_eq_true] at hheading
  obtain ⟨⟨htop, -⟩, key, hkey, hnames⟩ := hheading
  have hmem : key ∈ topKeys lines :=
    List.mem_filterMap.2 ⟨l, List.mem_filter.2 ⟨hl, htop⟩, hkey⟩
  rw [h key hmem] at hnames
  cases hnames

lemma headings_flatMap {α : Type} {xs : List α} {f : α → List Line}
    (h : ∀ x ∈ xs, headings (f x) = 1) : headings (xs.flatMap f) = xs.length := by
  induction xs with
  | nil => rfl
  | cons x rest ih =>
    rw [List.flatMap_cons, headings_append, h x List.mem_cons_self,
      ih fun y hy => h y (List.mem_cons_of_mem _ hy), List.length_cons, Nat.add_comm]

/-- Without the key `jobs` it is the headings that count. -/
lemma countJobs_eq_headings {lines : List Line} (h : "jobs".toList ∉ topKeys lines) :
    countJobs lines = headings lines := by
  have hnone : lines.dropWhile (fun l => !(l.isTopLevel && l.hasKey "jobs")) = [] := by
    rw [List.dropWhile_eq_nil_iff]
    intro l hl
    rw [Bool.not_eq_true', ← Bool.not_eq_true]
    intro htop
    exact h (hasTopLevelKey_iff.1 (List.any_eq_true.2 ⟨l, hl, htop⟩))
  rw [countJobs, hnone]
  rfl

end Pipework.Lint
