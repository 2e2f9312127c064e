import Pipework.Layout
import Pipework.Lint.Line
import Pipework.Proofs.Text.Lines

/-!
# Scanning a laid-out document

The linter reads the text of a laid-out document line by line, and remembers which line may have
opened a block scalar.  Two statements compose over the parts of a document:

* `Flush level doc`: where no block scalar reaches a line at `level`, every line of `doc` is scanned
  as it stands, outside of all blocks, and no block reaches a line at `level` behind it either.  For
  a whole document this says what its scan is (`Flush.scan_write`).
* `Holds P doc`: every line scanned satisfies `P`, wherever the document stands.  The lines of a
  script satisfy it as lines of a block, because the key above them opens one or stands in one
  itself (`Holds.block`).
-/

namespace Pipework

/-! ## Lines as they are met -/

/-- The line as it is read again. -/
def Layout.Line.shown (l : Layout.Line) : List Char :=
  Text.dropReturn (if l.text.isEmpty then [] else Layout.indent l.level ++ l.text)

namespace Lint

open Text
open Layout (levelWidth)

/-- A text that begins with something else than white space. -/
def Begins (text : List Char) : Prop := ∃ c rest, text = c :: rest ∧ isSpace c = false

lemma Begins.trim_eq {text : List Char} (h : Begins text) : trim text = trimEnd text := by
  obtain ⟨c, rest, rfl, hc⟩ := h
  rw [trim_cons hc, trimEnd_cons hc]

/-- The lines of a document are those that were laid out. -/
lemma lines_write {doc : List Layout.Line} (h : ∀ l ∈ doc, '\n' ∉ l.text) :
    lines (Layout.write doc) = doc.map Layout.Line.shown := by
  have hwrite : Layout.write doc =
      (doc.map fun l => if l.text.isEmpty then [] else Layout.indent l.level ++ l.text).flatMap
        (· ++ ['\n']) := by
    rw [Layout.write, List.flatMap_map]
    rfl
  rw [hwrite, lines_flatMap, List.map_map]
  · rfl
  · intro line hline
    obtain ⟨l, hl, rfl⟩ := List.mem_map.1 hline
    by_cases hempty : l.text.isEmpty
    · simp [hempty]
    · simp [hempty, Layout.indent, h l hl]

/-- A document with a line that begins with something else than white space is not blank. -/
lemma isBlank_write {doc : List Layout.Line} (h : ∃ l ∈ doc, Begins l.text) :
    isBlank (Layout.write doc) = false := by
  obtain ⟨l, hl, c, rest, htext, hc⟩ := h
  refine List.all_eq_false.2 ⟨c, List.mem_flatMap.2 ⟨l, hl, ?_⟩, by simp [hc]⟩
  simp [Layout.Line.write, htext]

lemma shown_of_ne_nil {l : Layout.Line} (h : l.text ≠ []) :
    l.shown = Layout.indent l.level ++ dropReturn l.text := by
  unfold Layout.Line.shown
  rw [if_neg (by simpa using h), dropReturn_append h]

lemma shown_of_nil {l : Layout.Line} (h : l.text = []) : l.shown = [] := by
  unfold Layout.Line.shown
  rw [if_pos (by simpa using h)]
  rfl

/-- Neither the indentation nor a carriage return at the end counts for a line that is not blank. -/
lemma trim_shown_of_ne_nil {l : Layout.Line} (h : trim l.text ≠ []) :
    trim l.shown = trim l.text := by
  obtain ⟨front, c, rest, htext, hfront, hc⟩ := exists_of_trim_ne_nil h
  have hne : l.text ≠ [] := by simp [htext]
  have hreturn : c ≠ '\r' := by
    rintro rfl
    exact absurd hc (by decide)
  have hshown : l.shown = (Layout.indent l.level ++ front) ++ c :: dropReturn rest := by
    rw [shown_of_ne_nil hne, htext, dropReturn_append (List.cons_ne_nil c rest),
      dropReturn_cons (.inr hreturn), List.append_assoc]
  have hspaces : ∀ d ∈ Layout.indent l.level ++ front, isSpace d = true := by
    refine List.forall_mem_append.2 ⟨fun d hd => ?_, hfront⟩
    rw [List.eq_of_mem_replicate hd]
    decide
  rw [hshown, trim_append_cons hc hspaces, trimEnd_dropReturn, htext, trim_append_cons hc hfront]

lemma trim_shown {l : Layout.Line} (h : Begins l.text) : trim l.shown = trim l.text := by
  obtain ⟨c, rest, htext, hc⟩ := h
  refine trim_shown_of_ne_nil ?_
  rw [htext, trim_cons hc]
  exact List.cons_ne_nil _ _

lemma trim_shown_ne_nil {l : Layout.Line} (h : Begins l.text) : trim l.shown ≠ [] := by
  obtain ⟨c, rest, htext, hc⟩ := h
  rw [trim_shown ⟨c, rest, htext, hc⟩, htext, trim_cons hc]
  exact List.cons_ne_nil _ _

lemma le_leadingSpaces_shown {l : Layout.Line} (h : l.text ≠ []) :
    l.level * levelWidth ≤ leadingSpaces l.shown := by
  rw [shown_of_ne_nil h, leadingSpaces, Layout.indent, List.takeWhile_append_of_pos (by simp)]
  simp

lemma leadingSpaces_shown_cons {level : Nat} {c : Char} {text : List Char} (hc : c ≠ ' ') :
    leadingSpaces (Layout.Line.shown ⟨level, c :: text⟩) = level * levelWidth := by
  have hfirst : ∀ d ∈ (dropReturn (c :: text)).head?, d ≠ ' ' := by
    intro d hd
    by_cases hreturn : text ≠ [] ∨ c ≠ '\r'
    · rw [dropReturn_cons hreturn, List.head?_cons, Option.mem_def, Option.some.injEq] at hd
      exact hd ▸ hc
    · obtain ⟨rfl, rfl⟩ : text = [] ∧ c = '\r' := by tauto
      cases hd
  have hrest : (dropReturn (c :: text)).takeWhile (· == ' ') = [] := by
    cases hdrop : dropReturn (c :: text) with
    | nil => rfl
    | cons d rest =>
      rw [hdrop] at hfirst
      simp [hfirst d rfl]
  rw [shown_of_ne_nil (by simp), leadingSpaces, Layout.indent,
    List.takeWhile_append_of_pos (by simp), hrest]
  simp

lemma leadingSpaces_shown {l : Layout.Line} (h : Begins l.text) :
    leadingSpaces l.shown = l.level * levelWidth := by
  obtain ⟨level, text⟩ := l
  obtain ⟨c, rest, rfl, hc⟩ := h
  refine leadingSpaces_shown_cons ?_
  rintro rfl
  exact absurd hc (by decide)

/-! ## Scanning part by part -/

/-- Whether a line belongs to the block scalar that the line indented by `parent` opened. -/
def inBody (parent : Option Nat) (raw : List Char) : Bool :=
  parent.any fun p => (trim raw).isEmpty || p < leadingSpaces raw

/-- The indentation of the line whose block scalar the line behind `raw` may belong to. -/
def nextParent (parent : Option Nat) (raw : List Char) : Option Nat :=
  if inBody parent raw then parent
  else if opensBlock (trim raw) then some (leadingSpaces raw)
  else none

/-- A line that opens a block is not blank. -/
lemma ne_nil_of_opensBlock {trimmed : List Char} (h : opensBlock trimmed = true) : trimmed ≠ [] := by
  rintro rfl
  simp [opensBlock, cut?] at h

/-- The line as it is scanned with a number and a place. -/
def scanned (number : Nat) (raw : List Char) (inBlock : Bool) : Line :=
  ⟨number, raw, leadingSpaces raw, trim raw, inBlock⟩

lemma scanFrom_cons (n : Nat) (parent : Option Nat) (raw : List Char) (rest : List (List Char)) :
    scanFrom n parent (raw :: rest) =
      scanned n raw (inBody parent raw) :: scanFrom (n + 1) (nextParent parent raw) rest := rfl

lemma scanFrom_append (n : Nat) (parent : Option Nat) (front back : List (List Char)) :
    scanFrom n parent (front ++ back) =
      scanFrom n parent front ++
        scanFrom (n + front.length) (front.foldl nextParent parent) back := by
  induction front generalizing n parent with
  | nil => rfl
  | cons raw front ih =>
    rw [List.cons_append, scanFrom_cons, scanFrom_cons, ih, List.foldl_cons, List.length_cons,
      List.cons_append, Nat.add_right_comm, Nat.add_assoc]

/-- No block scalar reaches a line at a level. -/
def Outside (level : Nat) (parent : Option Nat) : Prop := ∀ p ∈ parent, level * levelWidth ≤ p

lemma outside_none (level : Nat) : Outside level none := by simp [Outside]

/-- No block scalar reaches a line that is not indented. -/
lemma outside_zero (parent : Option Nat) : Outside 0 parent := by simp [Outside]

lemma Outside.mono {level level' : Nat} {parent : Option Nat} (h : Outside level' parent)
    (hle : level ≤ level') : Outside level parent :=
  fun p hp => Nat.le_trans (Nat.mul_le_mul_right _ hle) (h p hp)

lemma Outside.inBody_eq_false {l : Layout.Line} (hl : Begins l.text) {parent : Option Nat}
    (h : Outside l.level parent) : inBody parent l.shown = false := by
  cases parent with
  | none => rfl
  | some p =>
    have hp : l.level * levelWidth ≤ p := h p rfl
    simp [inBody, trim_shown_ne_nil hl, leadingSpaces_shown hl, hp]

/-- A line that is not indented is met outside of all blocks. -/
lemma mem_scan_write {front back : List Layout.Line} {l : Layout.Line}
    (hfeed : ∀ l' ∈ front ++ l :: back, '\n' ∉ l'.text) (hl : Begins l.text)
    (hlevel : l.level = 0) :
    ∃ n, scanned n l.shown false ∈ scan (Layout.write (front ++ l :: back)) := by
  have hout : ∀ parent, Outside l.level parent := hlevel ▸ outside_zero
  refine ⟨1 + (front.map Layout.Line.shown).length, ?_⟩
  rw [scan, lines_write hfeed, List.map_append, List.map_cons, scanFrom_append, scanFrom_cons,
    (hout _).inBody_eq_false hl]
  exact List.mem_append_right _ List.mem_cons_self

/-- Every line of a text is scanned with its number. -/
lemma exists_mem_scanFrom {raws : List (List Char)} {i : Nat} {raw : List Char}
    (h : raws[i]? = some raw) (n : Nat) (parent : Option Nat) :
    ∃ inBlock, scanned (n + i) raw inBlock ∈ scanFrom n parent raws := by
  induction raws generalizing i n parent with
  | nil => cases h
  | cons first raws ih =>
    rw [scanFrom_cons]
    cases i with
    | zero =>
      obtain rfl := Option.some.inj h
      exact ⟨_, List.mem_cons_self⟩
    | succ i =>
      obtain ⟨inBlock, hmem⟩ := ih h (n + 1) (nextParent parent first)
      rw [Nat.add_right_comm] at hmem
      exact ⟨inBlock, List.mem_cons_of_mem _ hmem⟩

/-- Every line that is scanned is the line of its number. -/
lemma exists_of_mem_scanFrom {raws : List (List Char)} {n : Nat} {parent : Option Nat} {l : Line}
    (h : l ∈ scanFrom n parent raws) :
    ∃ i raw inBlock, raws[i]? = some raw ∧ l = scanned (n + i) raw inBlock := by
  induction raws generalizing n parent with
  | nil => cases h
  | cons first raws ih =>
    rw [scanFrom_cons, List.mem_cons] at h
    rcases h with rfl | h
    · exact ⟨0, first, _, rfl, rfl⟩
    · obtain ⟨i, raw, inBlock, hraw, rfl⟩ := ih h
      exact ⟨i + 1, raw, inBlock, hraw, by rw [Nat.add_assoc, Nat.add_comm 1]⟩

/-! ## Documents outside of all blocks -/

/-- The line without its number, where a blank one counts as standing outside of blocks. -/
def Line.bare (l : Line) : Line := { l with number := 0, inBlock := l.inBlock && !l.isBlank }

/-- A line of a document as it is scanned outside of blocks. -/
def standing (l : Layout.Line) : Line := scanned 0 l.shown false

/-- The lines are scanned as they stand, wherever no block scalar reaches `level`. -/
structure Flush (level : Nat) (doc : List Layout.Line) : Prop where
  noFeed : ∀ l ∈ doc, '\n' ∉ l.text
  stands : ∀ n parent, Outside level parent →
    (scanFrom n parent (doc.map Layout.Line.shown)).map Line.bare = doc.map standing ∧
      Outside level ((doc.map Layout.Line.shown).foldl nextParent parent)

namespace Flush

variable {level level' : Nat} {l : Layout.Line} {front back doc : List Layout.Line}

lemma nil : Flush level [] := ⟨by simp, fun _ _ h => ⟨rfl, h⟩⟩

lemma append (hfront : Flush level front) (hback : Flush level back) :
    Flush level (front ++ back) := by
  refine ⟨List.forall_mem_append.2 ⟨hfront.noFeed, hback.noFeed⟩, fun n parent h => ?_⟩
  obtain ⟨hscan, hout⟩ := hfront.stands n parent h
  obtain ⟨hscan', hout'⟩ := hback.stands (n + (front.map Layout.Line.shown).length) _ hout
  rw [List.map_append, scanFrom_append, List.map_append, hscan, hscan', List.map_append,
    List.foldl_append]
  exact ⟨rfl, hout'⟩

/-- A line that is outside of blocks ends a block, or begins one of its own. -/
lemma nextParent_eq (hl : Begins l.text) {parent : Option Nat} (h : Outside l.level parent) :
    nextParent parent l.shown =
      if opensBlock (trim l.text) then some (l.level * levelWidth) else none := by
  rw [nextParent, h.inBody_eq_false hl, trim_shown hl, leadingSpaces_shown hl]
  rfl

/-- A line with lines below it that are further right: it must not open a block scalar. -/
lemma under (hl : Begins l.text) (hfeed : '\n' ∉ l.text) (hopen : opensBlock (trim l.text) = false)
    (hle : l.level ≤ level) (h : Flush level doc) : Flush l.level (l :: doc) := by
  refine ⟨List.forall_mem_cons.2 ⟨hfeed, h.noFeed⟩, fun n parent hout => ?_⟩
  have hnext : nextParent parent l.shown = none := by
    rw [nextParent_eq hl hout, hopen]
    rfl
  obtain ⟨hscan, hout'⟩ := h.stands (n + 1) none (outside_none level)
  rw [List.map_cons, scanFrom_cons, hout.inBody_eq_false hl, hnext, List.map_cons, hscan,
    List.foldl_cons, hnext]
  exact ⟨rfl, hout'.mono hle⟩

/-- A single line. -/
lemma line (hl : Begins l.text) (hfeed : '\n' ∉ l.text) : Flush l.level [l] := by
  refine ⟨List.forall_mem_singleton.2 hfeed, fun n parent hout => ?_⟩
  rw [List.map_singleton, scanFrom_cons, hout.inBody_eq_false hl]
  refine ⟨rfl, ?_⟩
  rw [List.foldl_cons, List.foldl_nil, nextParent_eq hl hout]
  split
  · intro p hp
    rw [Option.mem_def, Option.some.injEq] at hp
    exact Nat.le_of_eq hp
  · exact outside_none _

/-- An empty line. -/
lemma blank : Flush level [Layout.blank] := by
  refine ⟨by decide, fun n parent hout => ⟨?_, ?_⟩⟩
  · have hraw : Layout.blank.shown = [] := rfl
    rw [List.map_singleton, hraw, scanFrom_cons]
    cases inBody parent [] <;> rfl
  · have hraw : Layout.blank.shown = [] := rfl
    rw [List.map_singleton, hraw, List.foldl_cons, List.foldl_nil, nextParent]
    split
    · exact hout
    · exact outside_none _

/-- Lines at one level. -/
lemma lines (h : ∀ l ∈ doc, l.level = level ∧ Begins l.text ∧ '\n' ∉ l.text) : Flush level doc := by
  induction doc with
  | nil => exact nil
  | cons l rest ih =>
    obtain ⟨rfl, hbegins, hfeed⟩ := h l List.mem_cons_self
    exact (line hbegins hfeed).append (ih fun l' hl' => h l' (List.mem_cons_of_mem _ hl'))

/-- The scan of a document whose lines all stand outside of blocks. -/
theorem scan_write (h : Flush 0 doc) :
    (scan (Layout.write doc)).map Line.bare = doc.map standing := by
  rw [scan, lines_write h.noFeed]
  exact (h.stands 1 none (outside_none 0)).1

end Flush

/-! ## Properties of all lines -/

/-- All lines satisfy `P`, wherever the document stands. -/
structure Holds (P : Line → Prop) (doc : List Layout.Line) : Prop where
  noFeed : ∀ l ∈ doc, '\n' ∉ l.text
  all : ∀ n parent, ∀ l ∈ scanFrom n parent (doc.map Layout.Line.shown), P l

namespace Holds

variable {P : Line → Prop} {l : Layout.Line} {front back doc : List Layout.Line}

lemma nil : Holds P [] := ⟨by simp, by simp [scanFrom]⟩

lemma append (hfront : Holds P front) (hback : Holds P back) : Holds P (front ++ back) := by
  refine ⟨List.forall_mem_append.2 ⟨hfront.noFeed, hback.noFeed⟩, fun n parent l hl => ?_⟩
  rw [List.map_append, scanFrom_append, List.mem_append] at hl
  exact hl.elim (hfront.all _ _ l) (hback.all _ _ l)

/-- A single line, in a block or not. -/
lemma line (hfeed : '\n' ∉ l.text) (h : ∀ n inBlock, P (scanned n l.shown inBlock)) :
    Holds P [l] := by
  refine ⟨List.forall_mem_singleton.2 hfeed, fun n parent l' hl' => ?_⟩
  rw [List.map_singleton, scanFrom_cons, scanFrom, List.mem_singleton] at hl'
  rw [hl']
  exact h _ _

lemma cons (hl : Holds P [l]) (hdoc : Holds P doc) : Holds P (l :: doc) := hl.append hdoc

lemma flatMap {α : Type} {xs : List α} {f : α → List Layout.Line} (h : ∀ x ∈ xs, Holds P (f x)) :
    Holds P (xs.flatMap f) := by
  induction xs with
  | nil => exact nil
  | cons x rest ih =>
    rw [List.flatMap_cons]
    exact (h x List.mem_cons_self).append (ih fun y hy => h y (List.mem_cons_of_mem _ hy))

lemma map {α : Type} {xs : List α} {f : α → Layout.Line} (h : ∀ x ∈ xs, Holds P [f x]) :
    Holds P (xs.map f) := by
  induction xs with
  | nil => exact nil
  | cons x rest ih =>
    rw [List.map_cons]
    exact (h x List.mem_cons_self).cons (ih fun y hy => h y (List.mem_cons_of_mem _ hy))

lemma ite {c : Prop} [Decidable c] (ht : c → Holds P front) (he : ¬c → Holds P back) :
    Holds P (if c then front else back) := by
  split
  · exact ht ‹_›
  · exact he ‹_›

lemma option {α : Type} {o : Option α} {f : α → List Layout.Line} (h : ∀ x ∈ o, Holds P (f x)) :
    Holds P ((o.map f).getD []) := by
  cases o with
  | none => exact nil
  | some x => exact h x rfl

lemma option_line {α : Type} {o : Option α} {f : α → Layout.Line} (h : ∀ x ∈ o, Holds P [f x]) :
    Holds P (o.map f).toList := by
  cases o with
  | none => exact nil
  | some x => exact h x rfl

/-- The lines below a block scalar's key belong to a block: to its own, or to one further left that
the key itself belongs to. -/
lemma body {level : Nat} (hdeep : ∀ l ∈ doc, level < l.level)
    (h : ∀ l ∈ doc, ∀ n, P (scanned n l.shown true)) {p : Nat} (hp : p ≤ level * levelWidth)
    (n : Nat) : ∀ l ∈ scanFrom n (some p) (doc.map Layout.Line.shown), P l := by
  induction doc generalizing n with
  | nil => simp [scanFrom]
  | cons l doc ih =>
    have hin : inBody (some p) l.shown = true := by
      by_cases hne : l.text = []
      · rw [shown_of_nil hne]
        rfl
      · have hspaces := le_leadingSpaces_shown hne
        have hlevel := hdeep l List.mem_cons_self
        have hlt : p < leadingSpaces l.shown := by
          simp only [levelWidth] at hspaces hp
          omega
        simp [inBody, hlt]
    have hnext : nextParent (some p) l.shown = some p := by simp [nextParent, hin]
    rw [List.map_cons, scanFrom_cons, hin, hnext]
    intro l' hl'
    rcases List.mem_cons.1 hl' with rfl | hl'
    · exact h l List.mem_cons_self n
    · exact ih (fun l hl => hdeep l (List.mem_cons_of_mem _ hl))
        (fun l hl => h l (List.mem_cons_of_mem _ hl)) _ l' hl'

/-- A key with its block scalar. -/
lemma block (hl : Begins l.text) (hopen : opensBlock (trim l.text) = true) (hkey : Holds P [l])
    (hfeed : ∀ l' ∈ doc, '\n' ∉ l'.text) (hdeep : ∀ l' ∈ doc, l.level < l'.level)
    (hdoc : ∀ l' ∈ doc, ∀ n, P (scanned n l'.shown true)) : Holds P (l :: doc) := by
  refine ⟨List.forall_mem_cons.2 ⟨hkey.noFeed l (List.mem_singleton_self l), hfeed⟩,
    fun n parent => ?_⟩
  obtain ⟨p, hp, hnext⟩ :
      ∃ p, p ≤ l.level * levelWidth ∧ nextParent parent l.shown = some p := by
    by_cases hin : inBody parent l.shown = true
    · cases parent with
      | none => simp [inBody] at hin
      | some p =>
        have hspaces := leadingSpaces_shown hl
        have hlt : p < l.level * levelWidth := by
          simpa [inBody, trim_shown_ne_nil hl, hspaces] using hin
        exact ⟨p, Nat.le_of_lt hlt, by simp [nextParent, hin]⟩
    · refine ⟨_, Nat.le_refl _, ?_⟩
      rw [nextParent, if_neg hin, trim_shown hl, if_pos hopen, leadingSpaces_shown hl]
  rw [List.map_cons, scanFrom_cons, hnext]
  intro l' hl'
  rcases List.mem_cons.1 hl' with rfl | hl'
  · exact hkey.all n parent _ List.mem_cons_self
  · exact body hdeep hdoc hp _ l' hl'

/-- What holds of the lines of a whole document. -/
theorem scan_write (h : Holds P doc) : ∀ l ∈ scan (Layout.write doc), P l := by
  rw [scan, lines_write h.noFeed]
  exact h.all 1 none

end Holds

end Lint

end Pipework
