import Pipework.Proofs.Lint.Scan
import Pipework.Proofs.Lint.Structure
import Pipework.Proofs.Text.Edit
import Pipework.Proofs.Text.Parts

/-!
# Bodies of block scalars

A line in the body of a block scalar may look like a key, a job, a step, a comment or the mark of
another block: it is no part of the document's structure.  Where it is replaced by another line of
the same body, neither the problems nor the counts of the document change (`report_setLine`).  A
line is of the body if it is blank or further right than the line that opened the block: the last
one above it that is in no body itself (`openerOf`).
-/

namespace Pipework.Lint

open Text

/-! ## The line that opens a block -/

/-- The last line outside of all bodies in front of index `n`: the one that opened the block of the
line at that index, if this is in a body. -/
def openerOf (lines : List Line) (n : Nat) : Option Line :=
  (lines.take n).reverse.find? (!·.inBlock)

lemma length_scanFrom (n : Nat) (parent : Option Nat) (raws : List (List Char)) :
    (scanFrom n parent raws).length = raws.length := by
  induction raws generalizing n parent with
  | nil => rfl
  | cons raw rest ih => rw [scanFrom_cons, List.length_cons, ih, List.length_cons]

/-- What the scan remembers is how far the last line outside of all bodies is indented, if that line
opens a block. -/
theorem foldl_nextParent (raws : List (List Char)) :
    raws.foldl nextParent none =
      ((scanFrom 1 none raws).reverse.find? (!·.inBlock)).bind fun opener =>
        if opensBlock opener.trimmed then some opener.indent else none := by
  induction raws using List.reverseRecOn with
  | nil => rfl
  | append_singleton raws raw ih =>
    rw [List.foldl_append, List.foldl_cons, List.foldl_nil, scanFrom_append, scanFrom_cons,
      scanFrom, List.reverse_append, List.reverse_singleton, List.singleton_append,
      List.find?_cons, nextParent]
    cases inBody (raws.foldl nextParent none) raw with
    | true => simpa [scanned] using ih
    | false => simp [scanned]

/-! ## Lines of a body -/

/-- A line that is blank or further right than `p`. -/
def Deeper (p : Nat) (raw : List Char) : Prop := isBlank raw = true ∨ p < leadingSpaces raw

/-- A line that is blank, or further right than the line that opened the block, is of its body. -/
lemma Deeper.inBody {p : Nat} {raw : List Char} (h : Deeper p raw) :
    inBody (some p) raw = true := by
  rw [Lint.inBody, Option.any_some, Bool.or_eq_true, decide_eq_true_eq]
  exact h.imp_left fun hblank => by rw [trim_eq_nil_of_isBlank hblank]; rfl

/-- A carriage return at the end of the line makes no difference. -/
lemma Deeper.dropReturn {p : Nat} {raw : List Char} (h : Deeper p raw) :
    Deeper p (dropReturn raw) := by
  unfold Text.dropReturn
  split
  case isFalse => exact h
  case isTrue hreturn =>
    obtain ⟨front, rfl⟩ := List.getLast?_eq_some_iff.1 hreturn
    rw [List.dropLast_concat]
    refine h.imp (fun hblank => ?_) fun hdeep => ?_
    · rw [isBlank, List.all_append, Bool.and_eq_true] at hblank
      exact hblank.1
    · rw [leadingSpaces, List.takeWhile_append] at hdeep
      split at hdeep
      case isTrue hall => simpa [leadingSpaces, hall] using hdeep
      case isFalse => exact hdeep

/-- Lines of a body are no part of the structure, and without tabs they have no problem. -/
lemma scanFrom_body {p : Nat} {middle : List (List Char)}
    (h : ∀ raw ∈ middle, inBody (some p) raw = true ∧ '\t' ∉ raw) (n : Nat)
    (back : List (List Char)) :
    skeleton (scanFrom n (some p) (middle ++ back)) =
        skeleton (scanFrom (n + middle.length) (some p) back) ∧
      (scanFrom n (some p) (middle ++ back)).flatMap lineProblems =
        (scanFrom (n + middle.length) (some p) back).flatMap lineProblems := by
  induction middle generalizing n with
  | nil => exact ⟨rfl, rfl⟩
  | cons raw middle ih =>
    rw [List.forall_mem_cons] at h
    obtain ⟨⟨hbody, htab⟩, hmiddle⟩ := h
    have hnext : nextParent (some p) raw = some p := by rw [nextParent, hbody]; rfl
    have hstructural : (scanned n raw true).isStructural = false := by
      simp [Line.isStructural, scanned]
    have hproblems : lineProblems (scanned n raw true) = [] := by
      simp [lineProblems, isLaidOut, scanned, htab]
    obtain ⟨hskeleton, hflat⟩ := ih hmiddle (n + 1)
    rw [List.cons_append, scanFrom_cons, hbody, hnext, skeleton_cons_of_neg hstructural,
      List.flatMap_cons, hproblems, hskeleton, List.nil_append, hflat, List.length_cons,
      Nat.add_right_comm, Nat.add_assoc]
    exact ⟨rfl, rfl⟩

/-- Lines of one body in each other's place. -/
lemma scanFrom_body_congr {p : Nat} {old new back : List (List Char)}
    (hold : ∀ raw ∈ old, inBody (some p) raw = true ∧ '\t' ∉ raw)
    (hnew : ∀ raw ∈ new, inBody (some p) raw = true ∧ '\t' ∉ raw)
    (hback : back = [] ∨ new.length = old.length) (n : Nat) :
    skeleton (scanFrom n (some p) (new ++ back)) = skeleton (scanFrom n (some p) (old ++ back)) ∧
      (scanFrom n (some p) (new ++ back)).flatMap lineProblems =
        (scanFrom n (some p) (old ++ back)).flatMap lineProblems := by
  rw [(scanFrom_body hold n back).1, (scanFrom_body hold n back).2, (scanFrom_body hnew n back).1,
    (scanFrom_body hnew n back).2]
  rcases hback with rfl | hlength
  · exact ⟨rfl, rfl⟩
  · rw [hlength]
    exact ⟨rfl, rfl⟩

/-! ## Documents -/

/-- A text with a line that is not blank is not blank. -/
lemma isBlank_eq_false {text raw : List Char} (hmem : raw ∈ lines text) (hne : trim raw ≠ []) :
    isBlank text = false := by
  rw [← Bool.not_eq_true]
  intro hblank
  refine hne (trim_eq_nil_of_isBlank (List.all_eq_true.2 fun c hc => ?_))
  exact List.all_eq_true.1 hblank c (mem_lines hmem hc).1

/-- A line in a body is further down than the line that opened the block. -/
lemma exists_opener {front : List (List Char)} {raw : List Char}
    (h : inBody (front.foldl nextParent none) raw = true) :
    ∃ opener, (scanFrom 1 none front).reverse.find? (!·.inBlock) = some opener ∧
      opensBlock opener.trimmed = true ∧ front.foldl nextParent none = some opener.indent := by
  rw [foldl_nextParent] at h ⊢
  cases hfind : (scanFrom 1 none front).reverse.find? (!·.inBlock) with
  | none =>
    rw [hfind] at h
    cases h
  | some opener =>
    rw [hfind, Option.bind_some] at h
    by_cases hopens : opensBlock opener.trimmed = true
    · exact ⟨opener, rfl, hopens, by rw [Option.bind_some, if_pos hopens]⟩
    · rw [if_neg hopens] at h
      cases h

/-- Lines of one body in each other's place: the problems and the counts are the same. -/
lemma report_body_congr {text text' : List Char} {front old new back : List (List Char)} {p : Nat}
    (hlines : lines text = front ++ (old ++ back)) (hlines' : lines text' = front ++ (new ++ back))
    (hparent : front.foldl nextParent none = some p)
    (hold : ∀ raw ∈ old, inBody (some p) raw = true ∧ '\t' ∉ raw)
    (hnew : ∀ raw ∈ new, inBody (some p) raw = true ∧ '\t' ∉ raw)
    (hback : back = [] ∨ new.length = old.length) (hblank : isBlank text = false)
    (hblank' : isBlank text' = false) :
    (report text').problems = (report text).problems ∧
      (report text').stats = (report text).stats := by
  obtain ⟨hskeleton, hflat⟩ := scanFrom_body_congr hold hnew hback (1 + front.length)
  have hscan : scan text = scanFrom 1 none front ++
      scanFrom (1 + front.length) (some p) (old ++ back) := by
    rw [scan, hlines, scanFrom_append, hparent]
  have hscan' : scan text' = scanFrom 1 none front ++
      scanFrom (1 + front.length) (some p) (new ++ back) := by
    rw [scan, hlines', scanFrom_append, hparent]
  have hsame : skeleton (scan text') = skeleton (scan text) := by
    rw [hscan, hscan', skeleton_append, skeleton_append, hskeleton]
  have hlinewise : (scan text').flatMap lineProblems = (scan text).flatMap lineProblems := by
    rw [hscan, hscan', List.flatMap_append, List.flatMap_append, hflat]
  rw [report, report, hblank, hblank']
  exact ⟨problems_reportLines_congr text' text hlinewise hsame,
    stats_reportLines_congr text' text hsame⟩

/-- The line at an index and what the scan knows of the lines in front of it. -/
lemma exists_scanned {text : List Char} {n : Nat} {l : Line} (hl : (scan text)[n]? = some l) :
    ∃ raw, (lines text)[n]? = some raw ∧
      (scan text).take n = scanFrom 1 none ((lines text).take n) ∧
      l = scanned (1 + n) raw (inBody (((lines text).take n).foldl nextParent none) raw) := by
  have hn : n < (lines text).length := by
    rw [← length_scanFrom 1 none (lines text)]
    exact (List.getElem?_eq_some_iff.1 hl).1
  have hlength : ((lines text).take n).length = n := by
    rw [List.length_take, Nat.min_eq_left hn.le]
  have hlength' := (length_scanFrom 1 none ((lines text).take n)).trans hlength
  have hscan : scan text = scanFrom 1 none ((lines text).take n) ++
      scanFrom (1 + n) (((lines text).take n).foldl nextParent none) ((lines text).drop n) := by
    have happend := scanFrom_append 1 none ((lines text).take n) ((lines text).drop n)
    rwa [List.take_append_drop, hlength] at happend
  refine ⟨(lines text)[n], List.getElem?_eq_getElem hn, ?_, ?_⟩
  · rw [hscan, List.take_left' hlength']
  · rw [hscan, List.getElem?_append_right hlength'.le, hlength', Nat.sub_self,
      List.drop_eq_getElem_cons hn, scanFrom_cons] at hl
    exact (Option.some.inj hl).symm

/-- A line in the body of a block scalar can be any other line of this body: neither the problems
nor the counts of the document depend on it. -/
theorem report_setLine {text : List Char} {n : Nat} {l : Line} (hl : (scan text)[n]? = some l)
    (hbody : l.inBlock = true) (htab : '\t' ∉ l.raw) :
    ∃ opener, openerOf (scan text) n = some opener ∧ opensBlock opener.trimmed = true ∧
      ∀ new, '\t' ∉ new → '\n' ∉ new → isBlank new = true ∨ opener.indent < leadingSpaces new →
        (report (setLine n new text)).errors = (report text).errors ∧
          (report (setLine n new text)).isValid = (report text).isValid ∧
          (report (setLine n new text)).stats = (report text).stats := by
  obtain ⟨raw, hraw, htake, rfl⟩ := exists_scanned hl
  obtain ⟨hn, hget⟩ := List.getElem?_eq_some_iff.1 hraw
  have hlines : lines text = (lines text).take n ++ ([raw] ++ (lines text).drop (n + 1)) := by
    rw [← hget, List.singleton_append, ← List.drop_eq_getElem_cons hn, List.take_append_drop]
  obtain ⟨opener, hfind, hopens, hparent⟩ := exists_opener hbody
  refine ⟨opener, by rw [openerOf, htake, hfind], hopens, fun new htab' hfeed hdeep => ?_⟩
  obtain ⟨middle, hlines', hmiddle⟩ := lines_setLine hn hfeed
  have hold : ∀ raw' ∈ [raw], inBody (some opener.indent) raw' = true ∧ '\t' ∉ raw' :=
    List.forall_mem_singleton.2 ⟨hparent ▸ hbody, htab⟩
  have hnew : ∀ raw' ∈ middle, inBody (some opener.indent) raw' = true ∧ '\t' ∉ raw' := by
    rcases hmiddle with rfl | ⟨rfl, -⟩
    · exact List.forall_mem_singleton.2
        ⟨(Deeper.dropReturn hdeep).inBody, fun h => htab' (mem_of_mem_dropReturn h)⟩
    · intro raw' hraw'
      rw [lines_of_notMem hfeed] at hraw'
      split at hraw'
      · cases hraw'
      · obtain rfl := List.mem_singleton.1 hraw'
        exact ⟨Deeper.inBody hdeep, htab'⟩
  have hback : (lines text).drop (n + 1) = [] ∨ middle.length = [raw].length :=
    hmiddle.elim (fun h => .inr (by rw [h]; rfl)) fun h => .inl h.2
  -- the line that opened the block is in both documents, so that neither is blank
  obtain ⟨i, first, inBlock, hfirst, rfl⟩ :=
    exists_of_mem_scanFrom (List.mem_reverse.1 (List.mem_of_find?_eq_some hfind))
  have hfirst' : first ∈ (lines text).take n := List.mem_of_getElem? hfirst
  have hblank : isBlank text = false :=
    isBlank_eq_false (List.mem_of_mem_take hfirst') (ne_nil_of_opensBlock hopens)
  have hblank' : isBlank (setLine n new text) = false :=
    isBlank_eq_false (hlines' ▸ List.mem_append_left _ hfirst') (ne_nil_of_opensBlock hopens)
  obtain ⟨hproblems, hstats⟩ :=
    report_body_congr hlines hlines' hparent hold hnew hback hblank hblank'
  exact ⟨by rw [Report.errors, hproblems, Report.errors],
    by rw [Report.isValid, hproblems, Report.isValid], hstats⟩

/-- A workflow with a script of two lines. -/
def recipe (first : List Char) : List Char :=
  ended (["on: push", "jobs:", "  build:", "    steps:", "      - run: |"].map String.toList ++
    [first, "          make test".toList])

/-- A line that would be a step and open a block of its own, were it not in a body. -/
def disguise : List Char := "       - name: |".toList

/-- In the place of the script's first line, what looks like a step is none. -/
theorem report_setLine_recipe :
    (scan (recipe "          make".toList))[5]? =
        some ⟨6, "          make".toList, 10, "make".toList, true⟩ ∧
      setLine 5 disguise (recipe "          make".toList) = recipe disguise ∧
      (report (recipe disguise)).errors = (report (recipe "          make".toList)).errors ∧
      (report (recipe disguise)).isValid = true ∧ (report (recipe disguise)).stats = ⟨1, 0, 1⟩ := by
  have hl : (scan (recipe "          make".toList))[5]? =
      some ⟨6, "          make".toList, 10, "make".toList, true⟩ := by decide +kernel
  have hset : setLine 5 disguise (recipe "          make".toList) = recipe disguise := by
    decide +kernel
  have hfirst : openerOf (scan (recipe "          make".toList)) 5 =
      some ⟨5, "      - run: |".toList, 6, "- run: |".toList, false⟩ := by decide +kernel
  obtain ⟨opener, hopener, -, hsame⟩ := report_setLine hl rfl (by decide)
  obtain rfl := Option.some.inj (hfirst.symm.trans hopener)
  obtain ⟨herrors, hvalid, hstats⟩ := hsame disguise (by decide) (by decide) (.inr (by decide))
  rw [hset] at herrors hvalid hstats
  refine ⟨hl, hset, herrors, hvalid.trans ?_, hstats.trans ?_⟩
  · decide +kernel
  · decide +kernel

end Pipework.Lint
