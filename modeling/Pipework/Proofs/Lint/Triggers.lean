import Pipework.Proofs.Lint.Echo

/-!
# Triggers that are given twice

The linter looks for keys that are given twice among the lines below `on:` that stand as deep as the
first of them.  `Entries level names doc` says that a part of a document consists of entries with
these names at `level`, none of which reaches further left or opens a block scalar.  It composes
over the parts, so that a document with such entries below `on:` has as many repetitions as their
names (`triggerRisks_scan`).
-/

namespace Pipework.Lint

open Text Layout

/-! ## Repetitions in a report -/

/-- Whether a risk is a key that was given before. -/
def Risk.isRepetition : Risk → Bool
  | .duplicateTrigger _ => true
  | _ => false

/-- The triggers that a report calls duplicates. -/
def Report.repetitions (r : Report) : List (Finding Risk) :=
  r.risks.filter fun f => f.cause.isRepetition

lemma filter_isRepetition_eq_nil {fs : List (Finding Risk)}
    (h : ∀ f ∈ fs, f.cause.isRepetition = false) :
    fs.filter (fun f => f.cause.isRepetition) = [] := by
  apply List.filter_eq_nil_iff.2
  intro f hf
  rw [h f hf]
  exact Bool.false_ne_true

/-- Only the rule about triggers finds repetitions, and it finds nothing else. -/
lemma repetitions_report {text : List Char} (hblank : isBlank text = false) :
    (report text).repetitions =
      if hasTopLevelKey (scan text) "on" then triggerRisks (scan text) else [] := by
  have hlayout : ((scan text).flatMap lineRisks).filter (fun f => f.cause.isRepetition) = [] := by
    apply filter_isRepetition_eq_nil
    intro f hf
    obtain ⟨l, -, hl⟩ := List.mem_flatMap.1 hf
    obtain ⟨spaces, hcause⟩ := cause_of_mem_lineRisks hl
    rw [hcause]
    rfl
  have hpins : ((scan text).flatMap pinRisks).filter (fun f => f.cause.isRepetition) = [] := by
    apply filter_isRepetition_eq_nil
    intro f hf
    obtain ⟨l, -, hl⟩ := List.mem_flatMap.1 hf
    obtain ⟨action, major, pin, hcause⟩ := cause_of_mem_pinRisks hl
    rw [hcause]
    rfl
  have hechos : (echoRisks (scan text)).filter (fun f => f.cause.isRepetition) = [] := by
    apply filter_isRepetition_eq_nil
    intro f hf
    obtain ⟨l, -, rfl⟩ := List.mem_map.1 hf
    rfl
  have hruntimes : ((scan text).flatMap runtimeRisks).filter (fun f => f.cause.isRepetition) =
      [] := by
    apply filter_isRepetition_eq_nil
    intro f hf
    obtain ⟨l, -, hl⟩ := List.mem_flatMap.1 hf
    rcases cause_of_mem_runtimeRisks hl with ⟨major, hcause⟩ | ⟨major, minor, hcause⟩
    · rw [hcause]
      rfl
    · rw [hcause]
      rfl
  have htriggers : (triggerRisks (scan text)).filter (fun f => f.cause.isRepetition) =
      triggerRisks (scan text) := by
    apply List.filter_eq_self.2
    intro f hf
    obtain ⟨key, hcause⟩ := cause_of_mem_triggerRisks hf
    rw [hcause]
    rfl
  rw [Report.repetitions, report, hblank, if_neg Bool.false_ne_true]
  show List.filter _ (_ ++ _ ++ _ ++ _) = _
  rw [List.filter_append, List.filter_append, List.filter_append, hlayout, hechos, hruntimes]
  split
  · rw [List.filter_append, hpins, htriggers]
    simp
  · rfl

/-! ## Keys in a row -/

/-- Keys that are all different, and different from those seen, are only remembered. -/
lemma repeatedKeys_append {front : List Line} {seen : List (List Char)}
    (hnodup : (front.filterMap Line.key?).Nodup)
    (hnew : ∀ key ∈ front.filterMap Line.key?, key ∉ seen) (back : List Line) :
    repeatedKeys seen (front ++ back) =
      repeatedKeys ((front.filterMap Line.key?).reverse ++ seen) back := by
  induction front generalizing seen with
  | nil => rfl
  | cons l front ih =>
    cases hkey : l.key? with
    | none =>
      rw [List.filterMap_cons_none hkey] at hnodup hnew ⊢
      rw [List.cons_append, repeatedKeys, hkey]
      exact ih hnodup hnew
    | some key =>
      rw [List.filterMap_cons_some hkey] at hnodup hnew ⊢
      obtain ⟨hfirst, hrest⟩ := List.nodup_cons.1 hnodup
      obtain ⟨hkeyNew, hnew⟩ := List.forall_mem_cons.1 hnew
      have hseen : ∀ key' ∈ front.filterMap Line.key?, key' ∉ key :: seen := by
        intro key' hkey' hmem
        rcases List.mem_cons.1 hmem with rfl | hmem
        · exact hfirst hkey'
        · exact hnew key' hkey' hmem
      rw [List.cons_append, repeatedKeys, hkey]
      show (if seen.contains key then _ else _) = _
      rw [if_neg (by simpa using hkeyNew), ih hrest hseen, List.reverse_cons, List.append_assoc]
      rfl

lemma repeatedKeys_eq_nil {lines : List Line} (h : (lines.filterMap Line.key?).Nodup) :
    repeatedKeys [] lines = [] := by
  have happend : repeatedKeys [] (lines ++ []) =
      repeatedKeys ((lines.filterMap Line.key?).reverse ++ []) [] :=
    repeatedKeys_append h (by simp) []
  rwa [List.append_nil] at happend

/-- One key that is given again among keys that are all different. -/
lemma repeatedKeys_of_mem {front back : List Line} {l : Line} {key : List Char}
    (hkey : l.key? = some key) (hmem : key ∈ front.filterMap Line.key?)
    (hnodup : ((front ++ back).filterMap Line.key?).Nodup) :
    repeatedKeys [] (front ++ l :: back) = [l.finds (.duplicateTrigger (String.ofList key))] := by
  rw [List.filterMap_append, List.nodup_append] at hnodup
  obtain ⟨hfront, hback, hdisjoint⟩ := hnodup
  have hseen : (front.filterMap Line.key?).reverse.contains key = true := by
    simpa using hmem
  have hrest : ∀ key' ∈ back.filterMap Line.key?, key' ∉ (front.filterMap Line.key?).reverse := by
    intro key' hback' hfront'
    exact hdisjoint key' (List.mem_reverse.1 hfront') key' hback' rfl
  have hnil := repeatedKeys_append hback hrest []
  rw [List.append_nil] at hnil
  rw [repeatedKeys_append hfront (by simp), List.append_nil, repeatedKeys, hkey]
  show (if _ then _ else _) = _
  rw [if_pos hseen, hnil]
  rfl

/-- Only keys as deep as the first of a block are compared. -/
lemma triggerRisks_eq {lines : List Line} {spaces : Nat}
    (h : ∀ l ∈ (blockChildren lines "on").find? Line.isStructural, l.indent = spaces) :
    triggerRisks lines =
      repeatedKeys [] ((blockChildren lines "on").filter fun l => l.indent == spaces) := by
  simp only [triggerRisks]
  split
  case h_1 first hfind =>
    rw [h first hfind]
  case h_2 hfind =>
    have hnone : ((blockChildren lines "on").filter (fun l => l.indent == spaces)).filterMap
        Line.key? = [] := by
      apply List.filterMap_eq_nil_iff.2
      intro l hl
      have hstructural := List.find?_eq_none.1 hfind l (List.mem_filter.1 hl).1
      rw [Line.key?, Line.keyAndRest?, if_neg hstructural, Option.map_none]
    rw [repeatedKeys_eq_nil (by rw [hnone]; exact List.nodup_nil)]

/-! ## Entries of a block -/

/-- A line that begins with something else than white space, and begins no block scalar. -/
structure Closed (l : Layout.Line) : Prop where
  begins : Begins l.text
  noFeed : '\n' ∉ l.text
  opens : opensBlock (trim l.text) = false

namespace Closed

variable {level : Nat} {name : String} {l : Layout.Line} {doc : List Layout.Line}

lemma opening (hname : isIdentifier name.toList = true) : Closed (Layout.opening level name) := by
  have hkeyed : Keyed name.toList [] (Layout.opening level name) := .opens hname .plain
  exact ⟨hkeyed.begins, hkeyed.noFeed, hkeyed.entry.opensBlock_eq_false hkeyed.name⟩

lemma nextParent_eq (h : Closed l) : nextParent none l.shown = none := by
  rw [Flush.nextParent_eq h.begins (outside_none l.level), h.opens]
  rfl

lemma foldl_eq (h : ∀ l ∈ doc, Closed l) :
    (doc.map Layout.Line.shown).foldl nextParent none = none := by
  induction doc with
  | nil => rfl
  | cons l doc ih =>
    obtain ⟨hl, hdoc⟩ := List.forall_mem_cons.1 h
    rw [List.map_cons, List.foldl_cons, hl.nextParent_eq]
    exact ih hdoc

/-- Closed lines are scanned as they stand. -/
lemma exists_of_mem_scanFrom (h : ∀ l ∈ doc, Closed l) {n : Nat} {scannedLine : Line}
    (hl : scannedLine ∈ scanFrom n none (doc.map Layout.Line.shown)) :
    ∃ l ∈ doc, ∃ number, scannedLine = scanned number l.shown false := by
  induction doc generalizing n with
  | nil => cases hl
  | cons l doc ih =>
    obtain ⟨hfirst, hdoc⟩ := List.forall_mem_cons.1 h
    rw [List.map_cons, scanFrom_cons, hfirst.nextParent_eq, List.mem_cons] at hl
    rcases hl with rfl | hl
    · exact ⟨l, List.mem_cons_self, n, rfl⟩
    · obtain ⟨l', hl', number, heq⟩ := ih hdoc hl
      exact ⟨l', List.mem_cons_of_mem _ hl', number, heq⟩

end Closed

/-- An indented line does not stand at the very left, and neither does an empty one. -/
lemma isTopLevel_shown_eq_false {l : Layout.Line} (h : l.text = [] ∨ 0 < l.level) (n : Nat)
    (inBlock : Bool) : (scanned n l.shown inBlock).isTopLevel = false := by
  by_cases hne : l.text = []
  · rw [shown_of_nil hne]
    rfl
  · have hspaces := le_leadingSpaces_shown hne
    have hpos : 0 < l.level * levelWidth := Nat.mul_pos (h.resolve_left hne) (by decide)
    rw [Line.isTopLevel, Bool.and_eq_false_imp]
    intro _
    show (leadingSpaces l.shown == 0) = false
    rw [beq_eq_false_iff_ne]
    omega

section Entry

variable {level : Nat} {name : String} {below : List Layout.Line}
  (hname : isIdentifier name.toList = true) (hbelow : ∀ l ∈ below, level < l.level ∧ Closed l)

include hname

lemma scanFrom_entry (n : Nat) :
    scanFrom n none ((opening level name :: below).map Layout.Line.shown) =
      scanned n (opening level name).shown false ::
        scanFrom (n + 1) none (below.map Layout.Line.shown) := by
  rw [List.map_cons, scanFrom_cons, (Closed.opening hname).nextParent_eq]
  rfl

lemma indent_opening (n : Nat) :
    (scanned n (opening level name).shown false).indent = level * levelWidth :=
  leadingSpaces_shown (Closed.opening hname).begins

include hbelow

/-- The key of an entry is its only line at this depth. -/
lemma filter_scanFrom_entry (n : Nat) :
    (scanFrom n none ((opening level name :: below).map Layout.Line.shown)).filter
        (fun l => l.indent == level * levelWidth) =
      [scanned n (opening level name).shown false] := by
  have hnone : (scanFrom (n + 1) none (below.map Layout.Line.shown)).filter
      (fun l => l.indent == level * levelWidth) = [] := by
    apply List.filter_eq_nil_iff.2
    intro l hl
    obtain ⟨l', hl', number, rfl⟩ := Closed.exists_of_mem_scanFrom (fun l hl => (hbelow l hl).2) hl
    have hlt : level * levelWidth < l'.level * levelWidth :=
      Nat.mul_lt_mul_of_pos_right (hbelow l' hl').1 (by decide)
    show ¬(leadingSpaces l'.shown == level * levelWidth) = true
    rw [leadingSpaces_shown (hbelow l' hl').2.begins, beq_iff_eq]
    omega
  rw [scanFrom_entry hname, List.filter_cons_of_pos, hnone]
  rw [indent_opening hname, beq_self_eq_true]

end Entry

/-- A part of a block: entries with these names at a level, with what belongs to them further right.
No line of it begins a block scalar. -/
structure Entries (level : Nat) (names : List String) (doc : List Layout.Line) : Prop where
  noFeed : ∀ l ∈ doc, '\n' ∉ l.text
  deep : ∀ l ∈ doc, l.text = [] ∨ level ≤ l.level
  foldl_eq : (doc.map Layout.Line.shown).foldl nextParent none = none
  first : ∀ n, ∀ l ∈ (scanFrom n none (doc.map Layout.Line.shown)).find? Line.isStructural,
    l.indent = level * levelWidth
  keys_eq : ∀ n, ((scanFrom n none (doc.map Layout.Line.shown)).filter
    fun l => l.indent == level * levelWidth).filterMap Line.key? = names.map String.toList

namespace Entries

variable {level : Nat} {name : String} {names names' : List String}
  {front back below doc : List Layout.Line}

lemma scanFrom_append (hfront : Entries level names front) (n : Nat) (back : List Layout.Line) :
    scanFrom n none ((front ++ back).map Layout.Line.shown) =
      scanFrom n none (front.map Layout.Line.shown) ++
        scanFrom (n + front.length) none (back.map Layout.Line.shown) := by
  rw [List.map_append, Lint.scanFrom_append, hfront.foldl_eq, List.length_map]

lemma nil : Entries level [] [] where
  noFeed := List.forall_mem_nil _
  deep := List.forall_mem_nil _
  foldl_eq := rfl
  first _ _ hl := by cases hl
  keys_eq _ := rfl

lemma append (hfront : Entries level names front) (hback : Entries level names' back) :
    Entries level (names ++ names') (front ++ back) where
  noFeed := List.forall_mem_append.2 ⟨hfront.noFeed, hback.noFeed⟩
  deep := List.forall_mem_append.2 ⟨hfront.deep, hback.deep⟩
  foldl_eq := by rw [List.map_append, List.foldl_append, hfront.foldl_eq, hback.foldl_eq]
  first n l hl := by
    rw [hfront.scanFrom_append, List.find?_append] at hl
    cases hfind : (scanFrom n none (front.map Layout.Line.shown)).find? Line.isStructural with
    | some first =>
      rw [hfind, Option.some_or] at hl
      exact hfront.first n l (hfind ▸ hl)
    | none =>
      rw [hfind, Option.none_or] at hl
      exact hback.first _ l hl
  keys_eq n := by
    rw [hfront.scanFrom_append, List.filter_append, List.filterMap_append, hfront.keys_eq,
      hback.keys_eq, List.map_append]

lemma ite {c : Prop} [Decidable c] (h : c → Entries level names doc) :
    Entries level (if c then names else []) (if c then doc else []) := by
  split
  · exact h ‹_›
  · exact nil

/-- An empty line is no entry. -/
lemma blank : Entries level [] [Layout.blank] where
  noFeed := by decide
  deep := List.forall_mem_singleton.2 (.inl rfl)
  foldl_eq := rfl
  first n l hl := by cases hl
  keys_eq n := by
    apply List.filterMap_eq_nil_iff.2
    intro l hl
    obtain rfl := List.mem_singleton.1 (List.mem_filter.1 hl).1
    rfl

/-- A key with the lines of its entry below it. -/
lemma entry (hname : isIdentifier name.toList = true)
    (hbelow : ∀ l ∈ below, level < l.level ∧ Closed l) :
    Entries level [name] (opening level name :: below) := by
  have hkeyed : Keyed name.toList [] (opening level name) := .opens hname .plain
  have hclosed : ∀ l ∈ opening level name :: below, Closed l :=
    List.forall_mem_cons.2 ⟨.opening hname, fun l hl => (hbelow l hl).2⟩
  have hstructural : ∀ n, (scanned n (opening level name).shown false).isStructural = true := by
    intro n
    have htrim := hkeyed.entry.trimEnd
    rw [← hkeyed.begins.trim_eq, ← trim_shown hkeyed.begins] at htrim
    exact htrim.isStructural hkeyed.name rfl
  constructor
  case noFeed => exact fun l hl => (hclosed l hl).noFeed
  case deep =>
    exact List.forall_mem_cons.2
      ⟨.inr (Nat.le_refl level), fun l hl => .inr (Nat.le_of_lt (hbelow l hl).1)⟩
  case foldl_eq => exact Closed.foldl_eq hclosed
  case first =>
    intro n l hl
    rw [scanFrom_entry hname, List.find?_cons_of_pos (hstructural n)] at hl
    obtain rfl := Option.some.inj hl
    exact indent_opening hname n
  case keys_eq =>
    intro n
    rw [filter_scanFrom_entry hname hbelow,
      List.filterMap_cons_some (by rw [Line.key?, hkeyed.keyAndRest?_eq n, Option.map_some])]
    rfl

/-- What is not at the very left is no top-level line. -/
lemma isTopLevel_eq_false (h : Entries level names doc) (hlevel : 0 < level) (n : Nat) :
    ∀ l ∈ scanFrom n none (doc.map Layout.Line.shown), l.isTopLevel = false := by
  intro l hl
  obtain ⟨i, raw, inBlock, hraw, rfl⟩ := exists_of_mem_scanFrom hl
  obtain ⟨l', hl', rfl⟩ := List.mem_map.1 (List.mem_of_getElem? hraw)
  apply isTopLevel_shown_eq_false
  exact (h.deep l' hl').imp id (Nat.lt_of_lt_of_le hlevel)

/-- Entries with different names repeat no key. -/
lemma repeatedKeys_eq_nil (h : Entries level names doc) (hnodup : names.Nodup) (n : Nat) :
    repeatedKeys [] ((scanFrom n none (doc.map Layout.Line.shown)).filter
      fun l => l.indent == level * levelWidth) = [] := by
  apply Lint.repeatedKeys_eq_nil
  rw [h.keys_eq]
  exact hnodup.map fun _ _ heq => String.toList_injective heq

/-- An entry with the name of one in front of it is the only repetition among entries whose other
names are different. -/
lemma repeatedKeys_of_mem (hfront : Entries level names front) (hback : Entries level names' back)
    (hnodup : (names ++ names').Nodup) (hname : isIdentifier name.toList = true)
    (hmem : name ∈ names) (hbelow : ∀ l ∈ below, level < l.level ∧ Closed l) (n : Nat) :
    repeatedKeys [] ((scanFrom n none
        ((front ++ (opening level name :: below ++ back)).map Layout.Line.shown)).filter
          fun l => l.indent == level * levelWidth) =
      [⟨some (n + front.length), .duplicateTrigger name⟩] := by
  have hkeyed : Keyed name.toList [] (opening level name) := .opens hname .plain
  have hentry : Entries level [name] (opening level name :: below) := .entry hname hbelow
  have hkey : (scanned (n + front.length) (opening level name).shown false).key? =
      some name.toList := by
    rw [Line.key?, hkeyed.keyAndRest?_eq, Option.map_some]
  rw [hfront.scanFrom_append, hentry.scanFrom_append, List.filter_append, List.filter_append,
    filter_scanFrom_entry hname hbelow, List.singleton_append, Lint.repeatedKeys_of_mem hkey]
  · rw [String.ofList_toList]
    rfl
  · rw [hfront.keys_eq]
    exact List.mem_map_of_mem hmem
  · rw [List.filterMap_append, hfront.keys_eq, hback.keys_eq, ← List.map_append]
    exact hnodup.map fun _ _ heq => String.toList_injective heq

end Entries

/-! ## Lines without a key -/

/-- The line is no key of this name that stands at the very left. -/
def Lacks (name : String) (l : Line) : Prop := (l.isTopLevel && l.hasKey name) = false

namespace Holds

variable {level : Nat} {name : String} {key behind value : List Char} {l : Layout.Line}

/-- A line that is indented, if it is not empty. -/
lemma lacks (hfeed : '\n' ∉ l.text) (hlevel : l.text = [] ∨ 0 < l.level) :
    Holds (Lacks name) [l] := by
  refine .line hfeed fun n inBlock => ?_
  rw [Lacks, isTopLevel_shown_eq_false hlevel, Bool.false_and]

/-- A line with another key. -/
lemma lacks_keyed (h : Keyed key behind l) (hne : key ≠ name.toList) : Holds (Lacks name) [l] := by
  refine .line h.noFeed fun n inBlock => ?_
  rw [Lacks, Bool.and_eq_false_imp]
  intro htop
  cases inBlock with
  | true => simp [Line.isTopLevel, Line.isStructural, scanned] at htop
  | false =>
    rw [Line.hasKey, Line.key?, h.keyAndRest?_eq n, Option.map_some, beq_eq_false_iff_ne]
    exact fun heq => hne (Option.some.inj heq)

lemma lacks_key (hkey : '\n' ∉ key) : Holds (Lacks name) [Layout.key (level + 1) key] :=
  .lacks (by simpa [Layout.key] using hkey) (.inr (Nat.succ_pos level))

lemma lacks_entry (hkey : '\n' ∉ key) (hvalue : '\n' ∉ value) :
    Holds (Lacks name) [Layout.entry (level + 1) key value] :=
  .lacks (by simpa [Layout.entry] using ⟨hkey, hvalue⟩) (.inr (Nat.succ_pos level))

lemma lacks_blank : Holds (Lacks name) [Layout.blank] :=
  .lacks (by decide) (.inl rfl)

/-- What is indented throughout. -/
lemma lacks_of_forall {doc : List Layout.Line} (h : ∀ l ∈ doc, '\n' ∉ l.text ∧ 0 < l.level) :
    Holds (Lacks name) doc := by
  induction doc with
  | nil => exact nil
  | cons l doc ih =>
    obtain ⟨⟨hfeed, hlevel⟩, hdoc⟩ := List.forall_mem_cons.1 h
    exact .cons (.lacks hfeed (.inr hlevel)) (ih hdoc)

end Holds

/-- A document without `on:` is no workflow, so that nothing in it is a trigger. -/
lemma repetitions_eq_nil {doc : List Layout.Line} (h : Holds (Lacks "on") doc)
    (hbegins : ∃ l ∈ doc, Begins l.text) : (report (write doc)).repetitions = [] := by
  have hnone : hasTopLevelKey (scan (write doc)) "on" = false := by
    apply List.any_eq_false.2
    intro l hl
    have hlacks : (l.isTopLevel && l.hasKey "on") = false := h.scan_write l hl
    rw [hlacks]
    exact Bool.false_ne_true
  rw [repetitions_report (isBlank_write hbegins), hnone, if_neg Bool.false_ne_true]

/-! ## A document with triggers -/

section Document

variable {names : List String} {next : String} {front body rest : List Layout.Line}

/-- The lines below `on:` are its entries, up to the next key that is not indented. -/
lemma scan_triggers (hbody : Entries 1 names body) (hnext : isIdentifier next.toList = true)
    (hfront : ∀ l ∈ front, '\n' ∉ l.text) (hrest : ∀ l ∈ rest, '\n' ∉ l.text) :
    ∃ after, scan (write (front ++ opening 0 "on" :: (body ++ opening 0 next :: rest))) =
      scanFrom 1 none (front.map Layout.Line.shown) ++
        scanned (1 + front.length) (opening 0 "on").shown false ::
          (scanFrom (1 + front.length + 1) none (body.map Layout.Line.shown) ++
            scanned (1 + front.length + 1 + body.length) (opening 0 next).shown false ::
              after) := by
  have hfeed : ∀ l ∈ body ++ opening 0 next :: rest, '\n' ∉ l.text :=
    List.forall_mem_append.2
      ⟨hbody.noFeed, List.forall_mem_cons.2 ⟨(Closed.opening hnext).noFeed, hrest⟩⟩
  rw [scan_opening (by decide) hfront hfeed, hbody.scanFrom_append, List.map_cons, scanFrom_cons,
    (Closed.opening hnext).nextParent_eq]
  exact ⟨_, rfl⟩

variable (hbody : Entries 1 names body) (hnext : isIdentifier next.toList = true)
  (hfront : Holds (Lacks "on") front)
  (hrest : ∀ l ∈ rest, '\n' ∉ l.text)

include hbody hnext hfront hrest

/-- The keys that are compared are those of the entries. -/
lemma triggerRisks_scan :
    triggerRisks (scan (write (front ++ opening 0 "on" :: (body ++ opening 0 next :: rest)))) =
      repeatedKeys []
        ((scanFrom (1 + front.length + 1) none (body.map Layout.Line.shown)).filter
          fun l => l.indent == 1 * levelWidth) := by
  obtain ⟨after, hscan⟩ := scan_triggers hbody hnext hfront.noFeed hrest
  have htop := opening_isTopLevel hnext (1 + front.length + 1 + body.length)
  rw [Bool.and_eq_true] at htop
  have hchildren :
      blockChildren (scan (write (front ++ opening 0 "on" :: (body ++ opening 0 next :: rest))))
        "on" = scanFrom (1 + front.length + 1) none (body.map Layout.Line.shown) := by
    rw [hscan, blockChildren_append (hfront.all 1 none) (opening_isTopLevel (by decide) _)
      (hbody.isTopLevel_eq_false Nat.one_pos _), List.takeWhile_cons_of_neg (by simp [htop.1]),
      List.append_nil]
  rw [← hchildren]
  apply triggerRisks_eq
  rw [hchildren]
  exact hbody.first _

/-- A document with entries below `on:` is linted as a workflow. -/
lemma repetitions_write :
    (report (write (front ++ opening 0 "on" :: (body ++ opening 0 next :: rest)))).repetitions =
      repeatedKeys []
        ((scanFrom (1 + front.length + 1) none (body.map Layout.Line.shown)).filter
          fun l => l.indent == 1 * levelWidth) := by
  obtain ⟨after, hscan⟩ := scan_triggers hbody hnext hfront.noFeed hrest
  have hbegins : ∃ l ∈ front ++ opening 0 "on" :: (body ++ opening 0 next :: rest), Begins l.text :=
    ⟨_, List.mem_append_right _ List.mem_cons_self, 'o', _, rfl, by decide⟩
  have hworkflow : hasTopLevelKey
      (scan (write (front ++ opening 0 "on" :: (body ++ opening 0 next :: rest)))) "on" = true := by
    rw [hscan]
    exact List.any_eq_true.2 ⟨_, List.mem_append_right _ List.mem_cons_self,
      opening_isTopLevel (by decide) _⟩
  rw [repetitions_report (isBlank_write hbegins), if_pos hworkflow]
  exact triggerRisks_scan hbody hnext hfront hrest

end Document

end Pipework.Lint
