import Pipework.Proofs.Yaml.Block
import Pipework.Proofs.Text.Parts

/-!
# Literal blocks by their rules

How the lines below a key's mark become a text, as the format has it and apart from any scanner: the
indentation is told by the header or found in the first line that is not all spaces, it is taken
away from every line, and of the breaks at the end one is kept.  A script that is laid out as a
block comes out with its lines as they were (`read_block`).
-/

namespace Pipework.Yaml.Literal

open Layout

/-! ## The rules -/

/-- The spaces that a line begins with. -/
def depth (line : List Char) : Nat := (line.takeWhile (· == ' ')).length

/-- Whether a line is all spaces, perhaps none. -/
def isSpaces (line : List Char) : Bool := line.all (· == ' ')

/-- The digit behind the mark at the end of a header, if there is one. -/
def indicator? (header : List Char) : Option Nat :=
  match header.reverse with
  | d :: '|' :: _ => if d.isDigit then some (d.toNat - '0'.toNat) else none
  | _ => none

/-- The indentation of the content.  The header tells how much it is more than that of the key, or
else the first line that is not all spaces has it. -/
def contentDepth (parent : Nat) (header : List Char) (lines : List (List Char)) : Nat :=
  match indicator? header with
  | some n => parent + n
  | none =>
    match lines.find? (!isSpaces ·) with
    | some line => depth line
    | none => (lines.map depth).foldr max 0

/-- Whether a line can be part of a block, which ends where a line is indented less. -/
def belongs (n : Nat) (line : List Char) : Bool := isSpaces line || n ≤ depth line

/-- A line without the indentation of its block; a line that is all spaces may have less. -/
def unindent (n : Nat) (line : List Char) : List Char := line.drop (min n (depth line))

/-- Of the breaks at the end of a text one is kept, if anything is in front of them. -/
def clip (text : List Char) : List Char :=
  let kept := text.rdropWhile (· == '\n')
  if kept = [] then [] else kept ++ ['\n']

/-- The text of a block with a header and what is written below it. -/
def read (parent : Nat) (header body : List Char) : List Char :=
  let lines := body.splitOnP isBreak
  let n := contentDepth parent header lines
  clip (((lines.takeWhile (belongs n)).map (unindent n)).flatMap (· ++ ['\n']))

/-! ## Lines that are laid out -/

/-- A line as it stands in the document, without its end. -/
def shown (l : Line) : List Char := if l.text = [] then [] else indent l.level ++ l.text

lemma shown_nil (level : Nat) : shown ⟨level, []⟩ = [] := rfl

lemma shown_of_ne_nil (level : Nat) {text : List Char} (h : text ≠ []) :
    shown ⟨level, text⟩ = indent level ++ text := if_neg h

lemma write_eq_shown (l : Line) : l.write = shown l ++ ['\n'] := by
  by_cases h : l.text = [] <;> simp [Line.write, shown, h]

lemma not_isBreak_of_mem_shown {l : Line} (h : ∀ c ∈ l.text, isBreak c = false) :
    ∀ c ∈ shown l, isBreak c = false := by
  intro c hc
  unfold shown at hc
  split at hc
  · simp at hc
  · rcases List.mem_append.1 hc with hspace | htext
    · rw [List.eq_of_mem_replicate hspace]
      decide
    · exact h c htext

/-- The lines of a document are found again between its breaks. -/
lemma splitOnP_write {lines : List Line} (h : ∀ l ∈ lines, ∀ c ∈ l.text, isBreak c = false) :
    (write lines).splitOnP isBreak = lines.map shown ++ [[]] := by
  induction lines with
  | nil => simp [write]
  | cons l rest ih =>
    have hl := not_isBreak_of_mem_shown (h l List.mem_cons_self)
    have hrest := ih fun l hl => h l (List.mem_cons_of_mem _ hl)
    rw [write_cons, write_eq_shown, List.append_assoc, List.singleton_append,
      List.splitOnP_append_cons_of_forall_mem hl '\n' rfl, hrest, List.map_cons, List.cons_append]

lemma le_depth_indent (level : Nat) (text : List Char) :
    (indent level).length ≤ depth (indent level ++ text) := by
  rw [depth, List.takeWhile_append_of_pos fun c hc => by simp [List.eq_of_mem_replicate hc],
    List.length_append]
  exact Nat.le_add_right _ _

lemma depth_indent (level : Nat) {c : Char} (hc : c ≠ ' ') (text : List Char) :
    depth (indent level ++ c :: text) = (indent level).length := by
  rw [depth, List.takeWhile_append_of_pos fun c hc => by simp [List.eq_of_mem_replicate hc]]
  simp [hc]

/-- The lines of one level are all part of the block, and lose their indentation in it. -/
lemma belongs_shown (level : Nat) (text : List Char) :
    belongs (indent level).length (shown ⟨level, text⟩) = true := by
  by_cases h : text = []
  · simp [h, shown_nil, belongs, isSpaces]
  · simp [shown_of_ne_nil level h, belongs, le_depth_indent]

lemma unindent_shown (level : Nat) (text : List Char) :
    unindent (indent level).length (shown ⟨level, text⟩) = text := by
  by_cases h : text = []
  · simp [h, shown_nil, unindent]
  · rw [shown_of_ne_nil level h, unindent, Nat.min_eq_left (le_depth_indent level text),
      List.drop_left]

/-! ## Blocks -/

section

variable {content : List (List Char)}

lemma indicator?_marked (level : Nat) (name : List Char) (content : List (List Char)) :
    indicator? (entry level name (Layout.blockMark content)).text =
      if startsIndented content then some levelWidth else none := by
  unfold Layout.blockMark
  split
  · have hwidth : (toString levelWidth).toList = ['2'] := by decide
    rw [hwidth]
    simp [indicator?, entry, levelWidth]
  · simp [indicator?, entry]

/-- Without an indicator, the first line that is not empty has the indentation of the block. -/
lemma find?_shown (level : Nat) (h : startsIndented content = false) :
    (∀ text ∈ content, text = []) ∨
      ∃ c text, c ≠ ' ' ∧ (content.map fun text => shown ⟨level, text⟩).find? (!isSpaces ·) =
        some (indent level ++ c :: text) := by
  induction content with
  | nil => exact .inl (by simp)
  | cons line rest ih =>
    cases line with
    | nil =>
      rcases ih h with hempty | ⟨c, text, hc, hfind⟩
      · exact .inl (List.forall_mem_cons.2 ⟨rfl, hempty⟩)
      · refine .inr ⟨c, text, hc, ?_⟩
        rw [List.map_cons, shown_nil, List.find?_cons_of_neg (by simp [isSpaces]), hfind]
    | cons c text =>
      have hspace : Text.isSpace c = false := h
      have hc : c ≠ ' ' := by
        rintro rfl
        exact absurd hspace (by decide)
      refine .inr ⟨c, text, hc, ?_⟩
      rw [List.map_cons, shown_of_ne_nil level (List.cons_ne_nil c text),
        List.find?_cons_of_pos (by simp [isSpaces, hc])]

/-- The indentation of the content is that of its level, if there is any content. -/
lemma contentDepth_block (level : Nat) (name : List Char) (content : List (List Char)) :
    (∀ text ∈ content, text = []) ∨
      contentDepth (indent level).length (entry level name (Layout.blockMark content)).text
          ((content.map fun text => shown ⟨level + 1, text⟩) ++ [[]]) =
        (indent (level + 1)).length := by
  rw [contentDepth, indicator?_marked]
  cases h : startsIndented content with
  | true =>
    refine .inr ?_
    simp only [if_true, indent, List.length_replicate]
    rw [Nat.add_mul, Nat.one_mul]
  | false =>
    rcases find?_shown (level + 1) h with hempty | ⟨c, text, hc, hfind⟩
    · exact .inl hempty
    · refine .inr ?_
      rw [List.find?_append, hfind]
      exact depth_indent (level + 1) hc text

/-- Lines that are part of a block and lose their indentation in it are its content. -/
lemma map_unindent {n : Nat} {f : List Char → List Char}
    (h : ∀ text ∈ content, belongs n (f text) = true ∧ unindent n (f text) = text) :
    ((content.map f).takeWhile (belongs n)).map (unindent n) = content := by
  have hbelongs : ∀ line ∈ content.map f, belongs n line = true := by
    simpa using fun text htext => (h text htext).1
  rw [List.takeWhile_eq_self_iff.2 hbelongs, List.map_map]
  exact (List.map_congr_left fun text htext => (h text htext).2).trans (List.map_id _)

/-- The breaks that are not kept are those of empty lines. -/
lemma clip_flatMap {lines : List (List Char)} (h : ∀ line ∈ lines, '\n' ∉ line) :
    clip (lines.flatMap (· ++ ['\n'])) = blockText lines := by
  induction lines using List.reverseRecOn with
  | nil => rfl
  | append_singleton lines line ih =>
    rw [List.flatMap_append, List.flatMap_singleton]
    rcases List.eq_nil_or_concat line with rfl | ⟨front, c, rfl⟩
    · rw [List.nil_append, clip, List.rdropWhile_concat_pos _ _ _ (by simp)]
      have hempty : blockText (lines ++ [[]]) = blockText lines :=
        blockText_append_replicate lines 1
      rw [hempty]
      exact ih fun line hline => h line (List.mem_append_left _ hline)
    · have hc : c ≠ '\n' := by
        rintro rfl
        exact h _ (List.mem_append_right _ List.mem_cons_self) (by simp)
      rw [← List.append_assoc, clip, List.rdropWhile_concat_pos _ _ _ (by simp),
        List.concat_eq_append, ← List.append_assoc,
        List.rdropWhile_concat_neg _ _ _ (by simpa using hc), if_neg (by simp), blockText,
        List.rdropWhile_concat_neg _ _ _ (by simp)]
      simp

/-- The text of lines without breaks that are laid out as a block. -/
lemma read_lines (h : ∀ text ∈ content, ∀ c ∈ text, isBreak c = false) (level : Nat)
    (name : List Char) :
    read (indent level).length (entry level name (Layout.blockMark content)).text
        (write (content.map (⟨level + 1, ·⟩))) =
      blockText content := by
  have hlines : (write (content.map (⟨level + 1, ·⟩))).splitOnP isBreak =
      (content.map fun text => shown ⟨level + 1, text⟩) ++ [[]] := by
    rw [splitOnP_write (by simpa using h), List.map_map]
    rfl
  have hend : (content.map fun text => shown ⟨level + 1, text⟩) ++ [[]] =
      (content ++ [[]]).map fun text => shown ⟨level + 1, text⟩ := by
    simp [shown_nil]
  have hdepth := contentDepth_block level name content
  rw [← blockText_append_replicate content 1]
  simp only [read, hlines]
  generalize contentDepth _ _ _ = n at hdepth ⊢
  have hcontent : (((content ++ [[]]).map fun text => shown ⟨level + 1, text⟩).takeWhile
      (belongs n)).map (unindent n) = content ++ [[]] := by
    refine map_unindent fun text htext => ?_
    rcases hdepth with hempty | rfl
    · -- empty lines are the same at every indentation
      have htext : text = [] := by
        rcases List.mem_append.1 htext with htext | htext
        · exact hempty text htext
        · exact List.mem_singleton.1 htext
      simp [htext, shown_nil, belongs, isSpaces, unindent]
    · exact ⟨belongs_shown (level + 1) text, unindent_shown (level + 1) text⟩
  rw [hend, hcontent]
  refine clip_flatMap fun text htext hfeed => ?_
  rcases List.mem_append.1 htext with htext | htext
  · exact absurd (h text htext _ hfeed) (by decide)
  · rw [List.mem_singleton.1 htext] at hfeed
    cases hfeed

end

/-! ## Scripts -/

/-- The lines of a text are its parts between line feeds, but for an empty one at its end. -/
lemma exists_splitOn_eq_lines {s : List Char} (h : '\r' ∉ s) :
    ∃ j, s.splitOn '\n' = Text.lines s ++ List.replicate j [] := by
  induction s with
  | nil => exact ⟨1, rfl⟩
  | cons c rest ih =>
    rw [List.mem_cons, not_or] at h
    obtain ⟨j, hj⟩ := ih h.2
    rw [List.splitOn_cons_eq_if_modifyHead, hj]
    by_cases hc : c = '\n'
    · subst hc
      exact ⟨j, by simp [Text.lines]⟩
    · have hlines : Text.lines (c :: rest) = Text.consLine c (Text.lines rest) := by
        rw [Text.lines]
        · exact fun heq => hc heq
        · exact fun _ heq => absurd heq.symm h.1
      rw [hlines]
      cases hrest : Text.lines rest with
      | nil =>
        have hne : j ≠ 0 := by
          rintro rfl
          rw [hrest] at hj
          exact List.splitOn_ne_nil _ _ hj
        obtain ⟨j, rfl⟩ := Nat.exists_eq_succ_of_ne_zero hne
        exact ⟨j, by simp [hc, Text.consLine, List.replicate_succ]⟩
      | cons line lines => exact ⟨j, by simp [hc, Text.consLine]⟩

/-- A script comes out of its block with all its lines as they were, up to the last that is not
empty, whatever they begin with. -/
theorem read_block {content : List Char} (h : ∀ c ∈ content, isBreak c = true → c = '\n')
    (level : Nat) (name : List Char) :
    ∃ header below, block level name content = ⟨level, header⟩ :: below ∧
      read (indent level).length header (write below) = blockText (content.splitOn '\n') := by
  have hreturn : '\r' ∉ content := fun hmem => absurd (h _ hmem (by decide)) (by decide)
  have hlines : ∀ text ∈ Text.lines content, ∀ c ∈ text, isBreak c = false := by
    intro text htext c hc
    obtain ⟨hmem, hfeed⟩ := Text.mem_lines htext hc
    exact Bool.eq_false_iff.2 fun hbreak => hfeed (h c hmem hbreak)
  obtain ⟨j, hj⟩ := exists_splitOn_eq_lines hreturn
  refine ⟨_, _, rfl, ?_⟩
  rw [hj, blockText_append_replicate]
  exact read_lines hlines level name

/-- An empty line, one of spaces and a tab in front of a script are all kept. -/
theorem read_block_blanks :
    (∀ c ∈ "\n   \n\tmake\n\n".toList, isBreak c = true → c = '\n') ∧
      ∃ header below, block 1 "run".toList "\n   \n\tmake\n\n".toList = ⟨1, header⟩ :: below ∧
        read 2 header (write below) = "\n   \n\tmake\n".toList := by
  have hbreaks : ∀ c ∈ "\n   \n\tmake\n\n".toList, isBreak c = true → c = '\n' := by
    simp [isBreak]
  obtain ⟨header, below, hblock, hread⟩ := read_block hbreaks 1 "run".toList
  exact ⟨hbreaks, header, below, hblock, hread.trans (by decide)⟩

end Pipework.Yaml.Literal
