import Pipework.Proofs.Yaml.Scan

/-!
# Lines and the tokens they are

`Value` says which tokens stand behind the colon of a key, on the rest of its line and on the lines
below it.  `Group` says it of lines of one level: the entries of an object, or the items of a list.
Both say so whatever follows, as long as it stands no further right, and so they can be put
together from their parts in the order in which a document is laid out.

A document whose lines are the entries of an object is scanned to the tokens of that object
(`ofText?_write`).
-/

namespace Pipework.Yaml

open Layout

/-- The steps that scanning some lines takes at most: one for each character and for each line. -/
@[simp]
def weight : List Line → Nat
  | [] => 0
  | l :: lines => l.text.length + 1 + weight lines

lemma weight_cons (l : Line) (lines : List Line) :
    weight (l :: lines) = l.text.length + 1 + weight lines := rfl

@[simp]
lemma weight_append (lines lines' : List Line) :
    weight (lines ++ lines') = weight lines + weight lines' := by
  induction lines with
  | nil => simp
  | cons l rest ih =>
    rw [List.cons_append, weight_cons, weight_cons, ih]
    omega

/-- What stands behind the colon of a key of a level: the rest of its line, and lines below it. -/
structure Value (level : Nat) (text : List Char) (lines : List Line) (ts : List Token) : Prop where
  flatText : Flat text
  flat : ∀ l ∈ lines, Flat l.text
  space : ∀ c ∈ text.head?, c = ' '
  run {tail : List Line} (htail : Follows (2 * level) tail) (n k : Nat) (columns : List Nat)
    (hlt : 2 * level < k) :
    ∃ m, ∃ j ≤ text.length + weight lines,
      Scan.Run j (.inLine n k (2 * level :: columns) 0 false text (lines ++ tail)) ts
        (.atLine m (2 * level :: columns) tail)

/-- Lines of a level that are members of a collection, which begins with `start`: entries or items.
-/
structure Group (start : Token) (level : Nat) (lines : List Line) (ts : List Token) : Prop where
  flat : ∀ l ∈ lines, Flat l.text
  follows {tail : List Line} (htail : Follows (2 * level) tail) :
    Follows (2 * level) (lines ++ tail)
  run {tail : List Line} (htail : Follows (2 * level) tail) (n : Nat) (columns : List Nat) :
    ∃ m, ∃ j ≤ weight lines, Scan.Run j (.atLine n (2 * level :: columns) (lines ++ tail)) ts
      (.atLine m (2 * level :: columns) tail)
  /-- Without members there are only empty lines. -/
  empty (hts : ts = []) : ∀ l ∈ lines, l.text = []
  /-- The first member opens the collection. -/
  opens (hts : ts ≠ []) (tail : List Line) {columns : List Nat}
    (hcolumns : ∀ c ∈ columns.head?, c < 2 * level) (n : Nat) :
    Scan.Run 0 (.atLine n columns (lines ++ tail)) [start]
      (.atLine n (2 * level :: columns) (lines ++ tail))

/-! ## Behind a key -/

namespace Value

variable (level : Nat)

/-- Nothing at all. -/
lemma none : Value level [] [] [] where
  flatText := flat_nil
  flat := by simp
  space := by simp
  run _ n _ _ _ := ⟨n + 1, 0, by simp, Scan.run_end_of_line⟩

lemma scalar {w s : List Char} {plain : Bool} (h : Written w plain s) :
    Value level (' ' :: w) [] [.scalar plain s] where
  flatText := flat_cons.2 ⟨ordinary_space, h.flat⟩
  flat := by simp
  space := by simp
  run htail n _ _ _ := by
    refine ⟨n + 1, 1, by simp, ?_⟩
    exact (Scan.run_space 0 w).trans (Scan.run_scalar h (by omega) htail false)

lemma flowList {items : List (List Char)} (h : ∀ s ∈ items, Writable s) :
    Value level (' ' :: Text.flowList items) []
      (.flowList :: (Scan.flowTokens items ++ [.flowListEnd])) where
  flatText := flat_cons.2 ⟨ordinary_space, flat_cons.2 ⟨by decide, Scan.flat_flowText h⟩⟩
  flat := by simp
  space := by simp
  run _ n k columns hlt := by
    obtain ⟨j, hj, hrun⟩ := Scan.run_flowList h (Nat.lt_succ_of_lt hlt)
    exact ⟨n + 1, j, by simp; omega, (Scan.run_space 0 _).trans hrun⟩

lemma literal {content : List (List Char)} (h : ∀ l ∈ content, Flat l) :
    Value level (' ' :: Layout.blockMark content) (content.map (⟨level + 1, ·⟩))
      [.scalar false (blockText content)] where
  flatText := by
    refine flat_cons.2 ⟨ordinary_space, ?_⟩
    unfold Layout.blockMark
    split <;> decide
  flat l hl := by
    obtain ⟨text, htext, rfl⟩ := List.mem_map.1 hl
    exact h text htext
  space := by simp
  run htail n k columns hlt := by
    obtain ⟨m, hrun⟩ := Scan.run_literal htail h (Nat.lt_succ_of_lt hlt)
    exact ⟨m, 1, by simp; omega, (Scan.run_space 0 _).trans hrun⟩

variable {level}

/-- A collection one level deeper. -/
lemma nested {start : Token} {lines : List Line} {ts : List Token}
    (h : Group start (level + 1) lines ts) (hts : ts ≠ []) :
    Value level [] lines (start :: (ts ++ [.blockEnd])) where
  flatText := flat_nil
  flat := h.flat
  space := by simp
  run {tail} htail n k columns hlt := by
    have hdeeper : Follows (2 * (level + 1)) tail := htail.mono (by omega)
    have hend : Scan.Run 0 (.inLine n k (2 * level :: columns) 0 false [] (lines ++ tail)) []
        (.atLine (n + 1) (2 * level :: columns) (lines ++ tail)) := Scan.run_end_of_line
    have hopen : Scan.Run 0 (.atLine (n + 1) (2 * level :: columns) (lines ++ tail)) [start]
        (.atLine (n + 1) (2 * (level + 1) :: 2 * level :: columns) (lines ++ tail)) :=
      h.opens hts tail (by simp) (n + 1)
    obtain ⟨m, j, hj, hrun⟩ := h.run hdeeper (n + 1) (2 * level :: columns)
    have hleave : Scan.Run 0 (.atLine m (2 * (level + 1) :: 2 * level :: columns) tail) [.blockEnd]
        (.atLine m (2 * level :: columns) tail) := Scan.run_leave htail (by omega)
    refine ⟨m, j, by simpa using hj, ?_⟩
    simpa using hend.trans (hopen.trans (hrun.trans hleave))

end Value

/-! ## Entries and items -/

namespace Group

variable {start : Token} {level : Nat} {lines lines' : List Line} {ts ts' : List Token}

lemma nil : Group start level [] [] where
  flat := by simp
  follows htail := htail
  run _ n _ := ⟨n, 0, by simp, Scan.Run.refl _⟩
  empty := by simp
  opens := by simp

/-- An empty line between or behind members. -/
lemma blank : Group start level [Layout.blank] [] where
  flat := by simp [Layout.blank, flat_nil]
  follows htail := .blank 0 htail
  run _ n _ := ⟨n + 1, 0, by simp, Scan.run_blank 0⟩
  empty := by simp [Layout.blank]
  opens := by simp

/-- What opens a collection does so behind empty lines. -/
lemma opens_blanks (h : ∀ l ∈ lines, l.text = []) {columns columns' : List Nat}
    (hopen : ∀ n, Scan.Run 0 (.atLine n columns lines') [start] (.atLine n columns' lines'))
    (n : Nat) :
    Scan.Run 0 (.atLine n columns (lines ++ lines')) [start] (.atLine n columns' (lines ++ lines')) := by
  induction lines generalizing n with
  | nil => exact hopen n
  | cons l rest ih =>
    obtain ⟨level, text⟩ := l
    obtain rfl : text = [] := h ⟨level, text⟩ List.mem_cons_self
    have hrest := ih (fun l hl => h l (List.mem_cons_of_mem _ hl)) (n + 1)
    exact (Scan.run_blank level).trans (hrest.trans (Scan.run_blank level).symm)

/-- Members of one collection, one after the other. -/
lemma append (h : Group start level lines ts) (h' : Group start level lines' ts') :
    Group start level (lines ++ lines') (ts ++ ts') where
  flat l hl := (List.mem_append.1 hl).elim (h.flat l) (h'.flat l)
  follows htail := by
    rw [List.append_assoc]
    exact h.follows (h'.follows htail)
  run htail n columns := by
    obtain ⟨m, j, hj, hrun⟩ := h.run (h'.follows htail) n columns
    obtain ⟨m', j', hj', hrun'⟩ := h'.run htail m columns
    refine ⟨m', j' + j, by rw [weight_append]; omega, ?_⟩
    rw [List.append_assoc]
    exact hrun.trans hrun'
  empty hts l hl := by
    rw [List.append_eq_nil_iff] at hts
    exact (List.mem_append.1 hl).elim (h.empty hts.1 l) (h'.empty hts.2 l)
  opens hts tail columns hcolumns n := by
    rw [List.append_assoc]
    by_cases hfirst : ts = []
    · rw [hfirst, List.nil_append] at hts
      exact opens_blanks (h.empty hfirst) (h'.opens hts tail hcolumns) n
    · exact h.opens hfirst (lines' ++ tail) hcolumns n

/-- An entry of an object: a key with its value. -/
lemma entry {w s text : List Char} {plain : Bool} (h : Written w plain s)
    (hlength : w.length ≤ Scan.keyLimit) (hvalue : Value level text lines ts) :
    Group .blockObject level (⟨level, w ++ ':' :: text⟩ :: lines)
      (.key :: .scalar plain s :: .value :: ts) where
  flat l hl := by
    rcases List.mem_cons.1 hl with rfl | hl
    · exact flat_append.2 ⟨h.flat, flat_cons.2 ⟨by decide, hvalue.flatText⟩⟩
    · exact hvalue.flat l hl
  follows {tail} htail := by
    obtain ⟨c, t, rfl⟩ := List.exists_cons_of_ne_nil h.ne_nil
    exact .line (by omega) (h.begins (.line []) 0 0).solid _ _
  run {tail} htail n columns := by
    have hkey : Scan.Run 1 (.atLine n (2 * level :: columns)
        (⟨level, w ++ ':' :: text⟩ :: (lines ++ tail))) _ _ :=
      Scan.run_key_inside h hlength hvalue.space n
    obtain ⟨m, j, hj, hrun⟩ := hvalue.run htail n (2 * level + w.length + 1) columns (by omega)
    refine ⟨m, j + 1, ?_, hkey.trans hrun⟩
    simp only [weight_cons, List.length_append, List.length_cons]
    omega
  empty := by simp
  opens _ tail columns hcolumns n := Scan.run_key_open h hlength hvalue.space n hcolumns

/-- An item of a list that is a scalar. -/
lemma scalarItem {w s : List Char} {plain : Bool} (h : Written w plain s) :
    Group .blockList level [⟨level, '-' :: ' ' :: w⟩] [.item, .scalar plain s] where
  flat := by simpa using flat_cons.2 ⟨by decide, flat_cons.2 ⟨by decide, h.flat⟩⟩
  follows htail := .line (by omega) (by decide) _ _
  run {tail} htail n columns := by
    refine ⟨n + 1, 2, by simp, ?_⟩
    have hitem : Scan.Run 1 (.atLine n (2 * level :: columns) (⟨level, '-' :: ' ' :: w⟩ :: tail))
        [.item] (.atLine n (2 * level :: columns) (⟨level + 1, w⟩ :: tail)) :=
      Scan.run_item_inside h.ne_nil n
    have hindent : Scan.Run 0 (.atLine n (2 * level :: columns) (⟨level + 1, w⟩ :: tail)) []
        (.inLine n (2 * (level + 1)) (2 * level :: columns) 0 true w tail) :=
      (Scan.run_indent (level + 1) h.ne_nil).symm
    have hscalar : Scan.Run 1 (.inLine n (2 * (level + 1)) (2 * level :: columns) 0 true w tail)
        [.scalar plain s] (.atLine (n + 1) (2 * level :: columns) tail) :=
      Scan.run_scalar h (by omega) htail true
    exact hitem.trans (hindent.trans hscalar)
  empty := by simp
  opens _ tail columns hcolumns n := Scan.run_item_open h.ne_nil n hcolumns

/-- An item of a list that is an object, whose first entry stands behind the dash. -/
lemma objectItem {text : List Char} (htext : text ≠ [])
    (h : Group .blockObject (level + 1) (⟨level + 1, text⟩ :: lines) ts) (hts : ts ≠ []) :
    Group .blockList level (⟨level, '-' :: ' ' :: text⟩ :: lines)
      (.item :: .blockObject :: (ts ++ [.blockEnd])) where
  flat l hl := by
    rcases List.mem_cons.1 hl with rfl | hl
    · refine flat_cons.2 ⟨by decide, flat_cons.2 ⟨by decide, ?_⟩⟩
      exact h.flat ⟨level + 1, text⟩ List.mem_cons_self
    · exact h.flat l (List.mem_cons_of_mem _ hl)
  follows htail := .line (by omega) (by decide) _ _
  run {tail} htail n columns := by
    have hdeeper : Follows (2 * (level + 1)) tail := htail.mono (by omega)
    have hitem : Scan.Run 1
        (.atLine n (2 * level :: columns) (⟨level, '-' :: ' ' :: text⟩ :: (lines ++ tail))) [.item]
        (.atLine n (2 * level :: columns) (⟨level + 1, text⟩ :: (lines ++ tail))) :=
      Scan.run_item_inside htext n
    have hopen : Scan.Run 0 (.atLine n (2 * level :: columns) (⟨level + 1, text⟩ :: lines ++ tail))
        [.blockObject]
        (.atLine n (2 * (level + 1) :: 2 * level :: columns)
          (⟨level + 1, text⟩ :: lines ++ tail)) :=
      h.opens hts tail (by simp) n
    obtain ⟨m, j, hj, hrun⟩ := h.run hdeeper n (2 * level :: columns)
    have hleave : Scan.Run 0 (.atLine m (2 * (level + 1) :: 2 * level :: columns) tail) [.blockEnd]
        (.atLine m (2 * level :: columns) tail) := Scan.run_leave htail (by omega)
    refine ⟨m, j + 1, ?_, ?_⟩
    · simp only [weight_cons, List.length_cons] at hj ⊢
      omega
    · simpa using hitem.trans (hopen.trans (hrun.trans hleave))
  empty := by simp
  opens _ tail columns hcolumns n := Scan.run_item_open htext n hcolumns

end Group

/-! ## Documents -/

lemma weight_le_length_write (lines : List Line) : weight lines ≤ (write lines).length := by
  induction lines with
  | nil => simp
  | cons l rest ih =>
    have hline : l.text.length + 1 ≤ l.write.length := by
      unfold Line.write
      split
      · rename_i hempty
        simp [List.isEmpty_iff.1 hempty]
      · simp only [List.length_append, List.length_singleton]
        omega
    rw [weight_cons, write, List.flatMap_cons, List.length_append]
    exact Nat.add_le_add hline ih

lemma mem_write {lines : List Line} (h : ∀ l ∈ lines, Flat l.text) {c : Char}
    (hc : c ∈ write lines) : c = '\n' ∨ Ordinary c := by
  obtain ⟨l, hl, hline⟩ := List.mem_flatMap.1 hc
  rw [Line.write, List.mem_append, List.mem_singleton] at hline
  rcases hline with hline | rfl
  · refine .inr ?_
    split at hline
    · simp at hline
    · rcases List.mem_append.1 hline with hspace | htext
      · rw [List.eq_of_mem_replicate hspace]
        exact ordinary_space
      · exact h l hl c htext
  · exact .inl rfl

lemma length_ofCharsAt {text : List Char} (h : ∀ c ∈ text, c = '\n' ∨ Ordinary c) (n k : Nat) :
    (Glyph.ofCharsAt n k text).length = text.length := by
  induction text generalizing n k with
  | nil => rfl
  | cons c rest ih =>
    have hrest := ih fun d hd => h d (List.mem_cons_of_mem _ hd)
    rcases h c List.mem_cons_self with rfl | hc
    · rw [ofCharsAt_newline, List.length_cons, List.length_cons, hrest]
    · rw [ofCharsAt_cons hc, List.length_cons, List.length_cons, hrest]

/-- All characters of a text are allowed, and none of them marks its encoding. -/
lemma ofChars?_eq {text : List Char} (h : ∀ c ∈ text, c = '\n' ∨ Ordinary c) :
    Glyph.ofChars? text = some (Glyph.ofCharsAt 0 0 text) := by
  have hmark : text.head? ≠ some Glyph.byteOrderMark := by
    intro hhead
    rcases h _ (List.mem_of_mem_head? hhead) with heq | hordinary
    · exact absurd heq (by decide)
    · exact hordinary.isAllowed.2 rfl
  have hallowed : text.all Glyph.isAllowed = true := by
    refine List.all_eq_true.2 fun c hc => ?_
    rcases h c hc with rfl | hordinary
    · rfl
    · exact hordinary.isAllowed.1
  simp [Glyph.ofChars?, hmark, hallowed]

/-- Lines that are the entries of an object are scanned to its tokens. -/
theorem Group.ofText?_write {lines : List Line} {ts : List Token}
    (h : Group .blockObject 0 lines ts) (hts : ts ≠ []) :
    Token.ofText? (write lines) = some (.blockObject :: (ts ++ [.blockEnd])) := by
  have hchars : ∀ c ∈ write lines, c = '\n' ∨ Ordinary c := fun c hc => mem_write h.flat hc
  have hglyphs : Glyph.ofChars? (write lines) = some (Glyph.ofCharsAt 0 0 (write lines)) :=
    ofChars?_eq hchars
  have hopen : Scan.Run 0 (.atLine 0 [] (lines ++ [])) [.blockObject]
      (.atLine 0 [0] (lines ++ [])) := h.opens hts [] (by simp) 0
  obtain ⟨m, j, hj, hrun⟩ := h.run .nil 0 []
  have hend (fuel : Nat) : (Scan.atLine m [0] []).tokens (fuel + 1) = some [.blockEnd] := rfl
  have hfuel : j ≤ (Glyph.ofCharsAt 0 0 (write lines)).length := by
    rw [length_ofCharsAt hchars]
    exact hj.trans (weight_le_length_write lines)
  obtain ⟨fuel, hfuel⟩ := Nat.exists_eq_add_of_le' hfuel
  have htotal : fuel + 1 + (j + 0) = (Glyph.ofCharsAt 0 0 (write lines)).length + 1 := by omega
  have htokens := hopen.trans hrun (fuel + 1)
  rw [htotal, List.append_nil, hend] at htokens
  rw [Token.ofText?, hglyphs]
  exact htokens

end Pipework.Yaml
