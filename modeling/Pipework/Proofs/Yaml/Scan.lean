import Pipework.Proofs.Yaml.Block
import Pipework.Proofs.Yaml.Written

/-!
# Scanning laid-out lines

The scanner taken from the beginning of a line to the beginning of another one, with the tokens it
finds on the way.  `Scan.Run` says that some tokens come first and then those of a later scan, so
runs compose.  Block collections are opened and closed by columns alone, which takes no step of its
own: `run_leave` closes one in front of a line that stands left of it, and a line that can begin one
opens it (`run_open`).

The lines themselves come one step at a time: `run_key` takes the scanner behind the colon of a
key, `run_item` behind a dash, and `run_scalar`, `run_flowList` and `run_literal` from there over
what stands on the rest of the line and below it.
-/

namespace Pipework.Yaml

open Layout

namespace Scan

/-! ## Runs -/

/-- Some tokens are found in `k` steps, and then those of another scan. -/
def Run (k : Nat) (s : Scan) (ts : List Token) (s' : Scan) : Prop :=
  ∀ fuel, s.tokens (fuel + k) = (s'.tokens fuel).map (ts ++ ·)

lemma Run.trans {k k' : Nat} {s s' s'' : Scan} {ts ts' : List Token} (h : Run k s ts s')
    (h' : Run k' s' ts' s'') : Run (k' + k) s (ts ++ ts') s'' := by
  intro fuel
  rw [← Nat.add_assoc, h, h', Option.map_map]
  congr 1
  funext more
  simp

/-- Scans that find the same tokens are interchangeable. -/
lemma Run.symm {s s' : Scan} (h : Run 0 s [] s') : Run 0 s' [] s := by
  intro fuel
  have hfuel := h fuel
  rw [Nat.add_zero] at hfuel ⊢
  rw [hfuel, Option.map_map]
  exact Option.map_id'.symm

lemma Run.refl (s : Scan) : Run 0 s [] s := by
  intro fuel
  exact Option.map_id'.symm

/-- What a scan finds depends on the next token, not on the blanks in front of it. -/
lemma run_of_toToken {s s' : Scan} (hcolumns : s.columns = s'.columns) (hflows : s.flows = s'.flows)
    (htoken : toToken s.inFlow s.keyAllowed false s.rest =
      toToken s'.inFlow s'.keyAllowed false s'.rest) : Run 0 s [] s' := by
  have hinFlow : s.inFlow = s'.inFlow := by rw [inFlow, inFlow, hflows]
  intro fuel
  cases fuel with
  | zero => rfl
  | succ fuel =>
    rw [Nat.add_zero, tokens, tokens, htoken, hcolumns, hinFlow]
    obtain ⟨rest, columns, flows, keyAllowed⟩ := s
    obtain ⟨rest', columns', flows', keyAllowed'⟩ := s'
    obtain rfl : flows = flows' := hflows
    have hid : (fun ts : List Token => [] ++ ts) = id := rfl
    rw [hid, Option.map_id]
    rfl

/-- One step of the scanner. -/
lemma run_step {s s' : Scan} {keyAllowed : Bool} {g : Glyph} {gs : List Glyph} {ts : List Token}
    (htoken : toToken s.inFlow s.keyAllowed false s.rest = (keyAllowed, g :: gs))
    (hleave : s.inFlow = true ∨ leave g.column s.columns = ([], s.columns))
    (hstep : ({ s with keyAllowed } : Scan).step g gs = some (ts, s')) : Run 1 s ts s' := by
  intro fuel
  rw [tokens, htoken]
  have hends : (if s.inFlow = true then ([], s.columns) else leave g.column s.columns) =
      ([], s.columns) := by
    split
    · rfl
    · rename_i hflow
      exact hleave.resolve_left hflow
  simp only [hends, hstep]
  cases hrest : s'.tokens fuel <;> simp [hrest]

/-- A collection that begins with some lines is opened in front of them. -/
lemma run_open {s s' s'' : Scan} {start : Token} {ts : List Token} (h : Run 1 s (start :: ts) s'')
    (h' : Run 1 s' ts s'') : Run 0 s [start] s' := by
  intro fuel
  cases fuel with
  | zero => rfl
  | succ fuel =>
    rw [Nat.add_zero, h, h', Option.map_map]
    rfl

/-! ## Places between lines and inside of them -/

/-- The scan at the beginning of a line. -/
def atLine (n : Nat) (columns : List Nat) (lines : List Line) : Scan where
  rest := Glyph.ofCharsAt n 0 (write lines)
  columns := columns
  flows := 0
  keyAllowed := true

/-- The scan inside a line, with its text from there on and the lines below. -/
def inLine (n k : Nat) (columns : List Nat) (flows : Nat) (keyAllowed : Bool) (text : List Char)
    (lines : List Line) : Scan where
  rest := Glyph.ofCharsAt n k (text ++ '\n' :: write lines)
  columns := columns
  flows := flows
  keyAllowed := keyAllowed

section

variable {n k : Nat} {columns : List Nat} {keyAllowed : Bool} {lines : List Line}

lemma run_end_of_line : Run 0 (inLine n k columns 0 keyAllowed [] lines) []
    (atLine (n + 1) columns lines) :=
  run_of_toToken rfl rfl (toToken_newline n k (write lines))

lemma run_blank (level : Nat) : Run 0 (atLine n columns (⟨level, []⟩ :: lines)) []
    (atLine (n + 1) columns lines) := by
  refine run_of_toToken rfl rfl ?_
  rw [atLine, write_blank]
  exact toToken_newline n 0 (write lines)

lemma run_space (flows : Nat) (text : List Char) :
    Run 0 (inLine n k columns flows keyAllowed (' ' :: text) lines) []
      (inLine n (k + 1) columns flows keyAllowed text lines) :=
  run_of_toToken rfl rfl (toToken_space n k (text ++ '\n' :: write lines))

lemma run_indent (level : Nat) {text : List Char} (h : text ≠ []) :
    Run 0 (inLine n (2 * level) columns 0 true text lines) []
      (atLine n columns (⟨level, text⟩ :: lines)) := by
  refine run_of_toToken rfl rfl ?_
  rw [atLine, write_line level h]
  simp only
  rw [toToken_spaces, Nat.zero_add]
  rfl

/-- A collection ends in front of a line that stands left of it. -/
lemma run_leave {column c : Nat} (h : Follows column lines) (hlt : column < c) :
    Run 0 (atLine n (c :: columns) lines) [.blockEnd] (atLine n columns lines) := by
  intro fuel
  cases fuel with
  | zero => rfl
  | succ fuel =>
    rw [Nat.add_zero, tokens, tokens]
    rcases h.exists_toToken n with hnone | ⟨g, gs, hsome, hg⟩
    · simp [atLine, inFlow, hnone]
    · have hleave : leave g.column (c :: columns) =
          (.blockEnd :: (leave g.column columns).1, (leave g.column columns).2) := by
        have hgc : g.column < c := by omega
        simp [leave, hgc]
      simp only [atLine, inFlow, Nat.lt_irrefl, decide_false, Bool.false_eq_true, if_false, hsome,
        hleave]
      generalize step _ g gs = outcome
      cases outcome with
      | none => rfl
      | some next =>
        cases hrest : next.2.tokens fuel <;> simp [hrest]

end

/-! ## Scalars, alone and as keys -/

/-- What begins a scalar is read as one. -/
lemma step_entry {s : Scan} {c : Char} {n k : Nat} {gs rest : List Glyph} {ts : List Token}
    {broke : Bool} (hc : Begins c gs) (hflow : s.inFlow = true → c = '"')
    (hread : readEntry s.inFlow s.inner (⟨c, n, k⟩ :: gs) = some (ts, broke, rest)) :
    s.step ⟨c, n, k⟩ gs =
      match s.afterColon? ⟨c, n, k⟩ rest with
      | some rest =>
        some ((s.enter .blockObject k).1 ++ .key :: ts ++ [.value],
          { s with rest, columns := (s.enter .blockObject k).2, keyAllowed := false })
      | none =>
        if s.needsKey ⟨c, n, k⟩ then none else some (ts, { s with rest, keyAllowed := broke }) := by
  have hne := hc.ne
  simp only [List.mem_cons, List.not_mem_nil, or_false, not_or] at hne
  obtain ⟨h1, h2, h3, h4, h5, h6, h7, h8, -⟩ := hne
  have hgap (d : Char) (hd : d ∈ ['-', '?', ':']) : (c == d && atGap gs) = false := by
    by_cases h : c = d
    · simp [h, hc.indicator (h ▸ hd)]
    · simp [h]
  have hmark (d : Char) (hd : d ∈ ['-', '?', ':']) :
      (c == d && (s.inFlow || atGap gs)) = false := by
    by_cases hin : s.inFlow = true
    · have hcd : c ≠ d := by
        rintro rfl
        rw [hflow hin] at hd
        exact absurd hd (by decide)
      simp [hcd]
    · rw [Bool.not_eq_true] at hin
      rw [hin, Bool.false_or, hgap d hd]
  unfold step
  simp only [hc.marker, hgap '-' (by simp), hmark '?' (by simp), hmark ':' (by simp)]
  simp only [beq_eq_false_iff_ne.2 h1, beq_eq_false_iff_ne.2 h2, beq_eq_false_iff_ne.2 h3,
    beq_eq_false_iff_ne.2 h4, beq_eq_false_iff_ne.2 h5, beq_eq_false_iff_ne.2 h6,
    beq_eq_false_iff_ne.2 h7, beq_eq_false_iff_ne.2 h8]
  simp only [Bool.and_false, Bool.false_eq_true, if_false, Bool.or_false, hread]
  cases hafter : s.afterColon? ⟨c, n, k⟩ rest with
  | some rest => simp [hafter]
  | none => by_cases hkey : s.needsKey ⟨c, n, k⟩ = true <;> (simp [hafter, hkey, guard]; try rfl)

/-- The columns of the collections around a place let an entry begin at a column: the innermost is
that of its object, or stands left of it. -/
def Admits (columns : List Nat) (column : Nat) : Prop := ∀ c ∈ columns.head?, c ≤ column

lemma Admits.leave {columns : List Nat} {column : Nat} (h : Admits columns column) :
    leave column columns = ([], columns) := by
  cases columns with
  | nil => rfl
  | cons c columns =>
    have hc := h c rfl
    simp [Scan.leave, hc]

/-- The collection that an entry at a column begins there, unless it is one of those around it, and
the columns inside of it. -/
def entered (start : Token) (column : Nat) (columns : List Nat) : List Token × List Nat :=
  if columns.head? = some column then ([], columns) else ([start], column :: columns)

lemma entered_self (start : Token) (column : Nat) (columns : List Nat) :
    entered start column (column :: columns) = ([], column :: columns) := by
  simp [entered]

lemma entered_of_lt (start : Token) {column : Nat} {columns : List Nat}
    (h : ∀ c ∈ columns.head?, c < column) :
    entered start column columns = ([start], column :: columns) := by
  have hne : columns.head? ≠ some column := fun heq => Nat.lt_irrefl column (h column heq)
  simp [entered, hne]

lemma admits_self (column : Nat) (columns : List Nat) : Admits (column :: columns) column := by
  simp [Admits]

lemma admits_of_lt {column : Nat} {columns : List Nat} (h : ∀ c ∈ columns.head?, c < column) :
    Admits columns column := fun c hc => Nat.le_of_lt (h c hc)

lemma Admits.enter {s : Scan} {column : Nat} (h : Admits s.columns column) (hflows : s.flows = 0)
    (start : Token) : s.enter start column = entered start column s.columns := by
  obtain ⟨rest, columns, flows, keyAllowed⟩ := s
  obtain rfl : flows = 0 := hflows
  cases columns with
  | nil => simp [Scan.enter, entered, inFlow, inner]
  | cons c columns =>
    have hc : c ≤ column := h c rfl
    by_cases heq : c = column
    · simp [Scan.enter, entered, inFlow, inner, heq]
    · have hlt : c + 1 ≤ column := by omega
      simp [Scan.enter, entered, inFlow, inner, heq, hlt]

lemma Admits.inner_le {s : Scan} {column : Nat} (h : Admits s.columns column) :
    s.inner ≤ column + 1 := by
  obtain ⟨rest, columns, flows, keyAllowed⟩ := s
  cases columns with
  | nil => exact Nat.zero_le _
  | cons c columns => exact Nat.succ_le_succ (h c rfl)

lemma afterColon?_key {s : Scan} (hkey : s.keyAllowed = true) {n k m : Nat} {c x : Char}
    (hle : m ≤ k + keyLimit) (hx : x = ' ' ∨ x = '\n') (behind : List Char) :
    s.afterColon? ⟨c, n, k⟩ (Glyph.ofCharsAt n m (':' :: x :: behind)) =
      some (Glyph.ofCharsAt n (m + 1) (x :: behind)) := by
  have hgap : atGap (Glyph.ofCharsAt n (m + 1) (x :: behind)) = true := by
    rcases hx with rfl | rfl
    · rw [ofCharsAt_cons ordinary_space]
      rfl
    · rw [ofCharsAt_newline]
      rfl
  rw [ofCharsAt_cons (by decide), afterColon?]
  simp [skipBlanks, Glyph.isBlank, hkey, hgap, hle]

/-- A scalar with a colon behind it is a key. -/
lemma step_key {st : Scan} (hflows : st.flows = 0) (hkey : st.keyAllowed = true) {n k : Nat}
    (hcolumns : Admits st.columns k) {c : Char} {t s : List Char} {plain : Bool}
    (h : Written (c :: t) plain s) (hlength : (c :: t).length ≤ keyLimit) {x : Char}
    (hx : x = ' ' ∨ x = '\n') (behind : List Char) :
    st.step ⟨c, n, k⟩ (Glyph.ofCharsAt n (k + 1) (t ++ ':' :: x :: behind)) =
      some ((entered .blockObject k st.columns).1 ++ [.key, .scalar plain s, .value],
        { st with
          rest := Glyph.ofCharsAt n (k + (c :: t).length + 1) (x :: behind),
          columns := (entered .blockObject k st.columns).2,
          keyAllowed := false }) := by
  have hbegins := h.begins (.key hx behind) n (k + 1)
  have hinFlow : st.inFlow = false := by simp [inFlow, hflows]
  have hread := h.readEntry_key hcolumns.inner_le n hx behind
  have hafter := afterColon?_key hkey (c := c) (n := n) (Nat.add_le_add_left hlength k) hx behind
  rw [List.cons_append, ofCharsAt_cons hbegins.solid.ordinary, ← hinFlow] at hread
  rw [step_entry hbegins (fun hin => by simp [hinFlow] at hin) hread]
  simp only [hafter, hcolumns.enter hflows, List.append_assoc, List.cons_append, List.nil_append]

/-- A scalar at the end of its line is one alone. -/
lemma step_scalar {st : Scan} (hflows : st.flows = 0) {n k column : Nat}
    (hcolumns : st.columns.head? = some column) (hlt : column < k) {c : Char} {t s : List Char}
    {plain : Bool} (h : Written (c :: t) plain s) {lines : List Line}
    (hlines : Follows column lines) :
    ∃ broke rest, st.step ⟨c, n, k⟩ (Glyph.ofCharsAt n (k + 1) (t ++ '\n' :: write lines)) =
        some ([.scalar plain s], { st with rest, keyAllowed := broke }) ∧
      toToken false broke false rest =
        toToken false true false (Glyph.ofCharsAt (n + 1) 0 (write lines)) := by
  have hbegins := h.begins (.line (write lines)) n (k + 1)
  have hinFlow : st.inFlow = false := by simp [inFlow, hflows]
  have hinner : st.inner = column + 1 := by
    obtain ⟨rest, columns, flows, keyAllowed⟩ := st
    obtain ⟨columns, rfl⟩ := List.head?_eq_some_iff.1 hcolumns
    rfl
  obtain ⟨broke, rest, hread, htoken, hhead⟩ :=
    h.readEntry_value (k := k) (by omega : st.inner ≤ k + 1) (by omega) hlines n
  have hafter : st.afterColon? ⟨c, n, k⟩ rest = none := by
    unfold afterColon?
    cases hskip : skipBlanks rest with
    | nil => rfl
    | cons g gs =>
      have hg := hhead g (by rw [hskip]; rfl)
      by_cases hcolon : g.char = ':'
      · have hne : g.line ≠ n := by have := hg hcolon; omega
        simp [hne]
      · simp [hcolon]
  have hneeds : st.needsKey ⟨c, n, k⟩ = false := by
    have hne : ¬column = k := by omega
    simp [needsKey, hcolumns, hne]
  refine ⟨broke, rest, ?_, htoken⟩
  rw [List.cons_append, ofCharsAt_cons hbegins.solid.ordinary, ← hinFlow] at hread
  rw [step_entry hbegins (fun hin => by simp [hinFlow] at hin) hread]
  simp [hafter, hneeds]

section

variable {w s : List Char} {plain : Bool} {columns : List Nat} {lines : List Line}

/-- A line that begins with a key goes on behind its colon. -/
lemma run_key (h : Written w plain s) (hlength : w.length ≤ keyLimit) {level : Nat}
    (hcolumns : Admits columns (2 * level)) {text : List Char}
    (htext : ∀ c ∈ text.head?, c = ' ') (n : Nat) :
    Run 1 (atLine n columns (⟨level, w ++ ':' :: text⟩ :: lines))
      ((entered .blockObject (2 * level) columns).1 ++ [.key, .scalar plain s, .value])
      (inLine n (2 * level + w.length + 1) (entered .blockObject (2 * level) columns).2 0 false text
        lines) := by
  obtain ⟨x, behind, hx, hbehind⟩ : ∃ x behind, (x = ' ' ∨ x = '\n') ∧
      text ++ '\n' :: write lines = x :: behind := by
    cases text with
    | nil => exact ⟨'\n', _, .inr rfl, rfl⟩
    | cons c text => exact ⟨c, _, .inl (htext c rfl), rfl⟩
  obtain ⟨c, t, rfl⟩ := List.exists_cons_of_ne_nil h.ne_nil
  have hbegins := h.begins (.key hx behind) n (2 * level + 1)
  have hline : toToken false true false
      (Glyph.ofCharsAt n 0 (write (⟨level, c :: t ++ ':' :: text⟩ :: lines))) =
      (true, ⟨c, n, 2 * level⟩ :: Glyph.ofCharsAt n (2 * level + 1) (t ++ ':' :: x :: behind)) := by
    rw [List.cons_append, toToken_line hbegins.solid, List.append_assoc, List.cons_append, hbehind]
  refine run_step (s := atLine n columns _) hline (.inr hcolumns.leave) ?_
  rw [step_key rfl rfl hcolumns h hlength hx, inLine, hbehind]
  rfl

section

variable (h : Written w plain s) (hlength : w.length ≤ keyLimit) {level : Nat} {text : List Char}
  (htext : ∀ c ∈ text.head?, c = ' ') (n : Nat)

include h hlength htext

/-- Inside of an object, a key is another one of its keys. -/
lemma run_key_inside : Run 1 (atLine n (2 * level :: columns) (⟨level, w ++ ':' :: text⟩ :: lines))
    [.key, .scalar plain s, .value]
    (inLine n (2 * level + w.length + 1) (2 * level :: columns) 0 false text lines) := by
  have hkey : Run 1 (atLine n (2 * level :: columns) (⟨level, w ++ ':' :: text⟩ :: lines)) _ _ :=
    run_key h hlength (admits_self (2 * level) columns) htext n
  rwa [entered_self] at hkey

/-- Left of a key, it opens an object. -/
lemma run_key_open (hcolumns : ∀ c ∈ columns.head?, c < 2 * level) :
    Run 0 (atLine n columns (⟨level, w ++ ':' :: text⟩ :: lines)) [.blockObject]
      (atLine n (2 * level :: columns) (⟨level, w ++ ':' :: text⟩ :: lines)) := by
  have hkey : Run 1 (atLine n columns (⟨level, w ++ ':' :: text⟩ :: lines)) _ _ :=
    run_key h hlength (admits_of_lt hcolumns) htext n
  rw [entered_of_lt _ hcolumns] at hkey
  exact run_open hkey (run_key_inside h hlength htext n)

end

/-- A scalar inside a line, with nothing behind it. -/
lemma run_scalar (h : Written w plain s) {n k column : Nat} (hlt : column < k)
    (hlines : Follows column lines) (keyAllowed : Bool) :
    Run 1 (inLine n k (column :: columns) 0 keyAllowed w lines) [.scalar plain s]
      (atLine (n + 1) (column :: columns) lines) := by
  obtain ⟨c, t, rfl⟩ := List.exists_cons_of_ne_nil h.ne_nil
  have hbegins := h.begins (.line (write lines)) n (k + 1)
  have htoken : toToken false keyAllowed false
      (Glyph.ofCharsAt n k (c :: t ++ '\n' :: write lines)) =
      (keyAllowed, ⟨c, n, k⟩ :: Glyph.ofCharsAt n (k + 1) (t ++ '\n' :: write lines)) := by
    rw [List.cons_append, toToken_solid hbegins.solid, ofCharsAt_cons hbegins.solid.ordinary]
  have hleave : leave k (column :: columns) = ([], column :: columns) := by
    have hle : ¬k < column := by omega
    simp [leave, hle]
  obtain ⟨broke, rest, hstep, hrest⟩ : ∃ broke rest,
      (inLine n k (column :: columns) 0 keyAllowed (c :: t) lines).step ⟨c, n, k⟩
          (Glyph.ofCharsAt n (k + 1) (t ++ '\n' :: write lines)) =
        some ([.scalar plain s], ⟨rest, column :: columns, 0, broke⟩) ∧
      toToken false broke false rest =
        toToken false true false (Glyph.ofCharsAt (n + 1) 0 (write lines)) :=
    step_scalar rfl rfl hlt h hlines
  have hfirst := run_step (s := inLine n k (column :: columns) 0 keyAllowed (c :: t) lines) htoken
    (.inr hleave) hstep
  exact hfirst.trans (run_of_toToken rfl rfl hrest)

end

/-! ## Items -/

/-- A dash with a space behind it begins an item. -/
lemma step_item {st : Scan} (hflows : st.flows = 0) (hkey : st.keyAllowed = true) {n k : Nat}
    (hcolumns : Admits st.columns k) (rest : List Char) :
    st.step ⟨'-', n, k⟩ (Glyph.ofCharsAt n (k + 1) (' ' :: rest)) =
      some ((entered .blockList k st.columns).1 ++ [.item],
        { st with
          rest := Glyph.ofCharsAt n (k + 1) (' ' :: rest),
          columns := (entered .blockList k st.columns).2,
          keyAllowed := true }) := by
  have hinFlow : st.inFlow = false := by simp [inFlow, hflows]
  rw [ofCharsAt_cons ordinary_space]
  have hmarker : atAnyMarker (⟨'-', n, k⟩ :: ⟨' ', n, k + 1⟩ :: Glyph.ofCharsAt n (k + 1 + 1) rest) =
      false := by
    rw [atAnyMarker, not_atMarker_second (by simp), not_atMarker_second (by simp)]
    rfl
  have hgap : atGap (⟨' ', n, k + 1⟩ :: Glyph.ofCharsAt n (k + 1 + 1) rest) = true := rfl
  simp [step, hmarker, hgap, hinFlow, indicator, hkey, hcolumns.enter hflows, guard]

section

variable {columns : List Nat} {lines : List Line}

/-- A line that begins with a dash goes on as if its text began a line one level deeper. -/
lemma run_item {level : Nat} (hcolumns : Admits columns (2 * level)) {text : List Char}
    (htext : text ≠ []) (n : Nat) :
    Run 1 (atLine n columns (⟨level, '-' :: ' ' :: text⟩ :: lines))
      ((entered .blockList (2 * level) columns).1 ++ [.item])
      (atLine n (entered .blockList (2 * level) columns).2 (⟨level + 1, text⟩ :: lines)) := by
  have hline : toToken false true false
      (Glyph.ofCharsAt n 0 (write (⟨level, '-' :: ' ' :: text⟩ :: lines))) =
      (true, ⟨'-', n, 2 * level⟩ ::
        Glyph.ofCharsAt n (2 * level + 1) (' ' :: (text ++ '\n' :: write lines))) := by
    rw [toToken_line (by decide), List.cons_append]
  have hfirst : Run 1 (atLine n columns (⟨level, '-' :: ' ' :: text⟩ :: lines))
      ((entered .blockList (2 * level) columns).1 ++ [.item])
      (inLine n (2 * level + 1) (entered .blockList (2 * level) columns).2 0 true (' ' :: text)
        lines) := by
    refine run_step (s := atLine n columns _) hline (.inr hcolumns.leave) ?_
    exact step_item rfl rfl hcolumns (text ++ '\n' :: write lines)
  have hrun := hfirst.trans ((run_space 0 text).trans (run_indent (level + 1) htext))
  rwa [List.append_nil, List.append_nil] at hrun

section

variable {level : Nat} {text : List Char} (htext : text ≠ []) (n : Nat)

include htext

/-- Inside of a list, a dash is another one of its items. -/
lemma run_item_inside :
    Run 1 (atLine n (2 * level :: columns) (⟨level, '-' :: ' ' :: text⟩ :: lines)) [.item]
      (atLine n (2 * level :: columns) (⟨level + 1, text⟩ :: lines)) := by
  have hitem : Run 1
      (atLine n (2 * level :: columns) (⟨level, '-' :: ' ' :: text⟩ :: lines)) _ _ :=
    run_item (admits_self (2 * level) columns) htext n
  rwa [entered_self] at hitem

/-- Left of a dash, it opens a list. -/
lemma run_item_open (hcolumns : ∀ c ∈ columns.head?, c < 2 * level) :
    Run 0 (atLine n columns (⟨level, '-' :: ' ' :: text⟩ :: lines)) [.blockList]
      (atLine n (2 * level :: columns) (⟨level, '-' :: ' ' :: text⟩ :: lines)) := by
  have hitem : Run 1 (atLine n columns (⟨level, '-' :: ' ' :: text⟩ :: lines)) _ _ :=
    run_item (admits_of_lt hcolumns) htext n
  rw [entered_of_lt _ hcolumns] at hitem
  exact run_open hitem (run_item_inside htext n)

end

/-! ## Literal blocks -/

/-- A mark with the lines of a literal block below it is a scalar. -/
lemma run_literal {level : Nat} {tail : List Line} (h : Follows (2 * level) tail)
    {content : List (List Char)} (hflat : ∀ l ∈ content, Flat l) {n k : Nat}
    (hlt : 2 * level < k) :
    ∃ m, Run 1
      (inLine n k (2 * level :: columns) 0 false (Layout.blockMark content)
        (content.map (⟨level + 1, ·⟩) ++ tail))
      [.scalar false (blockText content)] (atLine m (2 * level :: columns) tail) := by
  obtain ⟨rest, hread, hrest⟩ := readBlock_append h hflat n (k + 1)
  refine ⟨n + 1 + content.length, ?_⟩
  generalize content.map (fun l => (⟨level + 1, l⟩ : Line)) ++ tail = lines at hread ⊢
  have hmark : Layout.blockMark content = '|' :: (Layout.blockMark content).tail := by
    unfold Layout.blockMark
    split <;> rfl
  have htoken : toToken false false false
      (Glyph.ofCharsAt n k (Layout.blockMark content ++ '\n' :: write lines)) =
      (false, ⟨'|', n, k⟩ ::
        Glyph.ofCharsAt n (k + 1) ((Layout.blockMark content).tail ++ '\n' :: write lines)) := by
    rw [hmark, List.cons_append, toToken_solid (by decide), ofCharsAt_cons (by decide)]
    rfl
  have hleave : leave k (2 * level :: columns) = ([], 2 * level :: columns) := by
    have hle : ¬k < 2 * level := by omega
    simp [leave, hle]
  have hmarker (gs : List Glyph) : atAnyMarker (⟨'|', n, k⟩ :: gs) = false :=
    atAnyMarker_of_column (by simp; omega) gs
  have hstep : (inLine n k (2 * level :: columns) 0 false (Layout.blockMark content) lines).step ⟨'|', n, k⟩
      (Glyph.ofCharsAt n (k + 1) ((Layout.blockMark content).tail ++ '\n' :: write lines)) =
      some ([.scalar false (blockText content)], ⟨rest, 2 * level :: columns, 0, true⟩) := by
    simp [step, hmarker, inLine, inFlow, inner, hread]
  have hfirst := run_step (s := inLine n k (2 * level :: columns) 0 false (Layout.blockMark content) lines)
    htoken (.inr hleave) hstep
  exact hfirst.trans (run_of_toToken rfl rfl hrest.toToken_eq)

/-! ## Lists in brackets -/

/-- The tokens of strings with separators between them. -/
def flowTokens : List (List Char) → List Token
  | [] => []
  | [s] => [.scalar false s]
  | s :: rest => .scalar false s :: .separator :: flowTokens rest

/-- The text of strings between brackets behind the opening one. -/
def flowText (items : List (List Char)) : List Char :=
  [',', ' '].intercalate (items.map Text.doubleQuoted) ++ [']']

lemma flowText_cons_cons (s t : List Char) (rest : List (List Char)) :
    flowText (s :: t :: rest) = Text.doubleQuoted s ++ (',' :: ' ' :: flowText (t :: rest)) := by
  simp [flowText, List.intercalate]

lemma flat_flowText {items : List (List Char)} (h : ∀ s ∈ items, Writable s) :
    Flat (flowText items) := by
  have hquoted : ∀ s ∈ items, Flat (Text.doubleQuoted s) :=
    fun s hs => (written_doubleQuoted (h s hs).quotable).flat
  induction items with
  | nil => decide
  | cons s rest ih =>
    have hs := hquoted s List.mem_cons_self
    cases rest with
    | nil => simpa [flowText, flat_append] using ⟨hs, by decide⟩
    | cons t rest =>
      rw [flowText_cons_cons, flat_append, flat_cons, flat_cons]
      refine ⟨hs, by decide, ordinary_space, ih (fun s hs => h s ?_) fun s hs => hquoted s ?_⟩ <;>
        exact List.mem_cons_of_mem _ hs

variable {n k : Nat}

lemma run_openBracket {column : Nat} (hlt : column < k) (text : List Char) :
    Run 1 (inLine n k (column :: columns) 0 false ('[' :: text) lines) [.flowList]
      (inLine n (k + 1) (column :: columns) 1 true text lines) := by
  have hleave : leave k (column :: columns) = ([], column :: columns) := by
    have hle : ¬k < column := by omega
    simp [leave, hle]
  have htoken : toToken false false false (Glyph.ofCharsAt n k ('[' :: text ++ '\n' :: write lines)) =
      (false, ⟨'[', n, k⟩ :: Glyph.ofCharsAt n (k + 1) (text ++ '\n' :: write lines)) := by
    rw [List.cons_append, toToken_solid (by decide), ofCharsAt_cons (by decide)]
  have hmarker (gs : List Glyph) : atAnyMarker (⟨'[', n, k⟩ :: gs) = false :=
    atAnyMarker_of_column (by simp; omega) gs
  refine run_step (s := inLine n k (column :: columns) 0 false ('[' :: text) lines) htoken
    (.inr hleave) ?_
  simp [step, hmarker, inLine, needsKey, guard]

lemma run_flowScalar {s : List Char} (h : Writable s) {x : Char} (hx : x = ',' ∨ x = ']')
    (text : List Char) :
    Run 1 (inLine n k columns 1 true (Text.doubleQuoted s ++ x :: text) lines) [.scalar false s]
      (inLine n (k + (Text.doubleQuoted s).length) columns 1 false (x :: text) lines) := by
  have hescapes : ∀ c ∈ s, Escapes Text.escapeChar c := fun c hc => escapes_escapeChar (h.quotable c hc)
  have hx' : Ordinary x ∧ x ≠ ' ' ∧ x ≠ '\t' ∧ x ≠ ':' := by rcases hx with rfl | rfl <;> decide
  have hquoted (behind : List Char) (m : Nat) :
      Glyph.ofCharsAt n m (Text.doubleQuoted s ++ behind) =
        ⟨'"', n, m⟩ :: Glyph.ofCharsAt n (m + 1) (s.flatMap Text.escapeChar ++ '"' :: behind) := by
    rw [Text.doubleQuoted, List.cons_append, List.cons_append, ofCharsAt_cons (by decide),
      List.append_assoc, List.singleton_append]
  have htext : Text.doubleQuoted s ++ x :: text ++ '\n' :: write lines =
      Text.doubleQuoted s ++ (x :: text ++ '\n' :: write lines) := List.append_assoc _ _ _
  have htoken : toToken true true false
      (Glyph.ofCharsAt n k (Text.doubleQuoted s ++ x :: text ++ '\n' :: write lines)) =
      (true, Glyph.ofCharsAt n k (Text.doubleQuoted s ++ (x :: text ++ '\n' :: write lines))) := by
    rw [htext, Text.doubleQuoted, List.cons_append, List.cons_append, toToken_solid (by decide)]
  have hread := Written.readContent_double hescapes (x :: text ++ '\n' :: write lines) true
    (inLine n k columns 1 true (Text.doubleQuoted s ++ x :: text) lines).inner n k
  have hcontent := hread
  rw [← List.cons_append, ← Text.doubleQuoted, hquoted] at hcontent
  have hbegins := begins_of_quote (.inr rfl)
    (Glyph.ofCharsAt n (k + 1) (s.flatMap Text.escapeChar ++
      '"' :: (x :: text ++ '\n' :: write lines)))
  rw [hquoted] at htoken
  refine run_step (s := inLine n k columns 1 true (Text.doubleQuoted s ++ x :: text) lines) htoken
    (.inl rfl) ?_
  rw [step_entry hbegins (fun _ => rfl) (readEntry_of_readContent hbegins hcontent),
    List.cons_append, ofCharsAt_cons hx'.1]
  simp [afterColon?, skipBlanks, Glyph.isBlank, hx', needsKey, inLine, inFlow, ofCharsAt_cons hx'.1]

lemma run_separator (text : List Char) (hk : k ≠ 0) :
    Run 1 (inLine n k columns 1 false (',' :: ' ' :: text) lines) [.separator]
      (inLine n (k + 2) columns 1 true text lines) := by
  have htoken : toToken true false false
      (Glyph.ofCharsAt n k (',' :: ' ' :: text ++ '\n' :: write lines)) =
      (false, ⟨',', n, k⟩ :: Glyph.ofCharsAt n (k + 1) (' ' :: text ++ '\n' :: write lines)) := by
    rw [List.cons_append, toToken_solid (by decide), ofCharsAt_cons (by decide)]
  have hfirst : Run 1 (inLine n k columns 1 false (',' :: ' ' :: text) lines) [.separator]
      (inLine n (k + 1) columns 1 true (' ' :: text) lines) := by
    refine run_step (s := inLine n k columns 1 false (',' :: ' ' :: text) lines) htoken (.inl rfl) ?_
    simp [step, inLine, atAnyMarker_of_column (g := ⟨',', n, k⟩) hk]
  exact hfirst.trans (run_space 1 text)

lemma run_closeBracket (keyAllowed : Bool) (hk : k ≠ 0) :
    Run 1 (inLine n k columns 1 keyAllowed [']'] lines) [.flowListEnd]
      (atLine (n + 1) columns lines) := by
  have htoken : toToken true keyAllowed false (Glyph.ofCharsAt n k ([']'] ++ '\n' :: write lines)) =
      (keyAllowed, ⟨']', n, k⟩ :: Glyph.ofCharsAt n (k + 1) ('\n' :: write lines)) := by
    rw [List.singleton_append, toToken_solid (by decide), ofCharsAt_cons (by decide)]
  have hfirst : Run 1 (inLine n k columns 1 keyAllowed [']'] lines) [.flowListEnd]
      (inLine n (k + 1) columns 0 false [] lines) := by
    refine run_step (s := inLine n k columns 1 keyAllowed [']'] lines) htoken (.inl rfl) ?_
    simp [step, inLine, atAnyMarker_of_column (g := ⟨']', n, k⟩) hk]
  exact hfirst.trans run_end_of_line

/-- What follows the opening bracket of a list of strings, up to the closing one. -/
lemma run_flowText {items : List (List Char)} (h : ∀ s ∈ items, Writable s) (hk : k ≠ 0) :
    ∃ j ≤ (flowText items).length, Run j (inLine n k columns 1 true (flowText items) lines)
      (flowTokens items ++ [.flowListEnd]) (atLine (n + 1) columns lines) := by
  induction items generalizing k with
  | nil => exact ⟨1, by simp [flowText, List.intercalate], run_closeBracket true hk⟩
  | cons s rest ih =>
    have hs : Writable s := h s List.mem_cons_self
    have hlength : 0 < (Text.doubleQuoted s).length := by simp [Text.doubleQuoted]
    cases rest with
    | nil =>
      have htext : flowText [s] = Text.doubleQuoted s ++ [']'] := by
        rw [flowText, List.map_singleton, List.intercalate_singleton]
      have hclose : k + (Text.doubleQuoted s).length ≠ 0 := by omega
      rw [htext]
      exact ⟨2, by simp; omega,
        (run_flowScalar hs (.inr rfl) []).trans (run_closeBracket false hclose)⟩
    | cons t rest =>
      have hrest : ∀ s ∈ t :: rest, Writable s := fun s hs => h s (List.mem_cons_of_mem _ hs)
      have hseparator : k + (Text.doubleQuoted s).length ≠ 0 := by omega
      obtain ⟨j, hj, hrun⟩ := ih (k := k + (Text.doubleQuoted s).length + 2) hrest (by omega)
      refine ⟨j + 1 + 1, ?_, ?_⟩
      · rw [flowText_cons_cons]
        simp only [List.length_append, List.length_cons]
        omega
      · rw [flowText_cons_cons]
        exact (run_flowScalar hs (.inl rfl) _).trans ((run_separator _ hseparator).trans hrun)

/-- A list of strings between brackets, to the end of its line. -/
lemma run_flowList {items : List (List Char)} (h : ∀ s ∈ items, Writable s) {column : Nat}
    (hlt : column < k) :
    ∃ j ≤ (Text.flowList items).length,
      Run j (inLine n k (column :: columns) 0 false (Text.flowList items) lines)
        (.flowList :: (flowTokens items ++ [.flowListEnd])) (atLine (n + 1) (column :: columns) lines) := by
  obtain ⟨j, hj, hrun⟩ : ∃ j ≤ (flowText items).length,
      Run j (inLine n (k + 1) (column :: columns) 1 true (flowText items) lines)
        (flowTokens items ++ [.flowListEnd]) (atLine (n + 1) (column :: columns) lines) :=
    run_flowText h (by omega)
  have hlist : Text.flowList items = '[' :: flowText items := rfl
  exact ⟨j + 1, by rw [hlist, List.length_cons]; omega, (run_openBracket hlt _).trans hrun⟩

end

end Scan

end Pipework.Yaml
