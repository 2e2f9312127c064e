import Pipework.Proofs.Lint.Clean
import Pipework.Proofs.Lint.Structure

/-!
# Documents with stages

What the rules find in a document does not depend on the numbers of its lines, so that a document
whose lines all stand outside of blocks can be judged line by line.  `Reads level keys stages doc`
says what the linter makes of a part of such a document: it finds no fault with any line, `keys` are
the keys that are not indented, and `stages` are the stages that lines seem to name.  For a whole
document only undeclared stages are left as problems (`Reads.problems_report`).
-/

namespace Pipework.Lint

open Text Layout
open Yaml (OneLine)

/-! ## Lines without their numbers -/

section Bare

variable (l : Line) (lines : List Line)

@[simp]
lemma isStructural_bare : l.bare.isStructural = l.isStructural := by
  unfold Line.isStructural Line.bare Line.isComment Line.isBlank
  cases l.trimmed.isEmpty <;> simp

lemma faithful_bare : Faithful Line.bare := ⟨fun _ => rfl, fun _ => rfl, isStructural_bare⟩

@[simp]
lemma isTopLevel_bare : l.bare.isTopLevel = l.isTopLevel := faithful_bare.isTopLevel l

@[simp]
lemma key?_bare : l.bare.key? = l.key? := faithful_bare.key? l

@[simp]
lemma value?_bare : l.bare.value? = l.value? := faithful_bare.value? l

@[simp]
lemma isBareKey_bare : l.bare.isBareKey = l.isBareKey := faithful_bare.isBareKey l

@[simp]
lemma stageOf?_bare : stageOf? l.bare = stageOf? l := faithful_bare.stageOf? l

lemma lineProblems_bare : lineProblems l.bare = [] ↔ lineProblems l = [] := by
  have hlaid : isLaidOut l.bare = isLaidOut l := by
    unfold isLaidOut Line.bare Line.isBlank
    cases l.trimmed.isEmpty <;> simp
  unfold lineProblems
  rw [hlaid]
  simp [Line.bare, Line.isComment]

lemma declaredStages_bare : declaredStages (lines.map Line.bare) = declaredStages lines :=
  faithful_bare.declaredStages lines

end Bare

/-! ## Keys that are not indented -/

/-- The keys that are not indented. -/
def topKeys (lines : List Line) : List (List Char) :=
  (lines.filter Line.isTopLevel).filterMap Line.key?

lemma topKeys_append (front back : List Line) :
    topKeys (front ++ back) = topKeys front ++ topKeys back := by
  simp [topKeys]

lemma topKeys_bare (lines : List Line) : topKeys (lines.map Line.bare) = topKeys lines := by
  have htop : Line.isTopLevel ∘ Line.bare = Line.isTopLevel := by
    funext l
    simp
  have hkey : Line.key? ∘ Line.bare = Line.key? := by
    funext l
    simp
  rw [topKeys, List.filter_map, htop, List.filterMap_map, hkey, topKeys]

lemma hasTopLevelKey_iff {lines : List Line} {name : String} :
    hasTopLevelKey lines name = true ↔ name.toList ∈ topKeys lines := by
  simp only [hasTopLevelKey, topKeys, List.any_eq_true, Bool.and_eq_true, Line.hasKey, beq_iff_eq,
    List.mem_filterMap, List.mem_filter]
  exact exists_congr fun l => and_assoc.symm

/-! ## Blocks below keys that are not indented -/

/-- A block is looked for below the first key of its name. -/
lemma dropWhile_header {front rest : List Line} {header : Line} {name : String}
    (hfront : ∀ l ∈ front, (l.isTopLevel && l.hasKey name) = false)
    (hheader : (header.isTopLevel && header.hasKey name) = true) :
    (front ++ header :: rest).dropWhile (fun l => !(l.isTopLevel && l.hasKey name)) =
      header :: rest := by
  rw [List.dropWhile_append_of_pos fun l hl => by rw [hfront l hl]; rfl,
    List.dropWhile_cons_of_neg (by simp [hheader])]

/-- The lines up to the next one that is not indented belong to the block. -/
lemma blockChildren_append {front children rest : List Line} {header : Line} {name : String}
    (hfront : ∀ l ∈ front, (l.isTopLevel && l.hasKey name) = false)
    (hheader : (header.isTopLevel && header.hasKey name) = true)
    (hchildren : ∀ l ∈ children, l.isTopLevel = false) :
    blockChildren (front ++ header :: (children ++ rest)) name =
      children ++ rest.takeWhile (!·.isTopLevel) := by
  rw [blockChildren, dropWhile_header hfront hheader]
  simp only
  rw [List.takeWhile_append_of_pos fun l hl => by rw [hchildren l hl]; rfl]

/-! ## Stages -/

/-- The stages that are reported: those that lines name and that are not declared. -/
lemma map_cause_stageProblems (lines : List Line) :
    (stageProblems lines).map (·.cause) =
      ((lines.filterMap stageOf?).filter fun s => !(declaredStages lines).contains s).map
        fun s => .undeclaredStage (String.ofList s) := by
  rw [stageProblems, List.map_filterMap, ← List.filterMap_eq_filter, List.filterMap_filterMap,
    List.map_filterMap]
  refine List.filterMap_congr fun l _ => ?_
  cases stageOf? l with
  | none => rfl
  | some stage => by_cases h : stage ∈ declaredStages lines <;> simp [h, Line.finds, Option.guard]

/-- The stages that are declared in the block below the first `stages:`. -/
lemma declaredStages_append {front children rest : List Line} {header : Line}
    (hfront : "stages".toList ∉ topKeys front) (htop : header.isTopLevel = true)
    (hkey : header.keyAndRest? = some ("stages".toList, []))
    (hchildren : ∀ l ∈ children, l.isTopLevel = false)
    (hrest : ∀ l ∈ rest.head?, l.isTopLevel = true) :
    declaredStages (front ++ header :: (children ++ rest)) =
      (children.filter Line.isStructural).filterMap fun l =>
        (['-', ' '].isPrefixOf? l.trimmed).map fun s => Line.unquote (trim (withoutComment s)) := by
  have hheader : (header.isTopLevel && header.hasKey "stages") = true := by
    rw [htop, Line.hasKey, Line.key?, hkey]
    rfl
  have hskip : ∀ l ∈ front, (l.isTopLevel && l.hasKey "stages") = false := by
    intro l hl
    rw [← Bool.not_eq_true]
    intro h
    exact hfront (hasTopLevelKey_iff.1 (List.any_eq_true.2 ⟨l, hl, h⟩))
  have hblock : blockChildren (front ++ header :: (children ++ rest)) "stages" = children := by
    rw [blockChildren_append hskip hheader hchildren]
    cases rest with
    | nil => simp
    | cons l rest => simp [hrest l rfl]
  have hfind : (front ++ header :: (children ++ rest)).find?
      (fun l => l.isTopLevel && l.hasKey "stages") = some header := by
    rw [List.find?_append, List.find?_eq_none.2 fun l hl => by simp [hskip l hl], Option.none_or,
      List.find?_cons, hheader]
  unfold declaredStages
  rw [hfind]
  simp only [hblock, Line.value?, hkey]
  rfl

/-- The quotes and the white space around a written key are no part of it. -/
lemma unquote_key {name key : List Char} (h : KeyOf name key) (hname : isIdentifier name = true) :
    Line.unquote (trim (withoutComment key)) = name := by
  have hspace : ∀ c ∈ key, isSpace c = false := fun c hc => (h.inert hname c hc).1
  have hcode : withoutComment key = key := by
    have hblank : ' ' ∉ key := fun hmem => absurd (hspace ' ' hmem) (by decide)
    rw [withoutComment, before, cut?_eq_none hblank]
    rfl
  rw [hcode, trim_eq_self hspace, h.unquote hname]

namespace Keyed

variable {level : Nat} {name key behind : List Char} {l : Layout.Line}

lemma stageOf?_eq_none (h : Keyed name behind l) (hname : name ≠ "stage".toList) :
    stageOf? (standing l) = none := by
  have hkey : (standing l).hasKey "stage" = false := by
    rw [Line.hasKey, Line.key?, standing, h.keyAndRest?_eq 0]
    exact beq_eq_false_iff_ne.2 fun heq => hname (Option.some.inj heq)
  rw [stageOf?, hkey]
  rfl

/-- A key alone names no stage. -/
lemma stageOf?_opens (h : Keyed name [] l) : stageOf? (standing l) = none := by
  unfold stageOf?
  rw [Line.value?, standing, h.keyAndRest?_eq 0]
  split <;> rfl

/-- A line that names a stage. -/
lemma stageOf?_eq_some (h : KeyOf name key) (hname : isIdentifier name = true) :
    stageOf? (standing (Layout.entry level "stage".toList key)) = some name := by
  have hkeyed : Keyed "stage".toList (' ' :: key) (Layout.entry level "stage".toList key) :=
    .holds (by decide) .plain (h.oneLine hname)
  have hvalue : trim (Text.trimEnd (' ' :: key)) = key := by
    obtain ⟨c, rest, rfl, -⟩ := h.exists_cons hname
    have hspace : ∀ d ∈ c :: rest, isSpace d = false := fun d hd => (h.inert hname d hd).1
    have htrim := trim_eq_self hspace
    have hc := hspace c List.mem_cons_self
    rw [trim_cons hc] at htrim
    have hend : Text.trimEnd (' ' :: c :: rest) = ' ' :: c :: rest := by
      have hcons := trimEnd_append_cons hc [' '] rest
      rw [htrim] at hcons
      exact hcons
    rw [hend, trim, trimStart, List.dropWhile_cons_of_pos (by decide), ← trimStart, ← trim,
      trim_eq_self hspace]
  have hne : name.isEmpty = false := by
    obtain ⟨c, rest, rfl, -⟩ := exists_of_isIdentifier hname
    rfl
  unfold stageOf?
  rw [Line.hasKey, Line.key?, Line.value?, standing, hkeyed.keyAndRest?_eq 0]
  simp [hvalue, unquote_key h hname, hne]

end Keyed

/-! ## Parts of a document -/

/-- A line without fault at a level. -/
structure Fits (level : Nat) (l : Layout.Line) : Prop where
  level_eq : l.level = level
  begins : Begins l.text
  noFeed : '\n' ∉ l.text
  sound : lineProblems (standing l) = []

lemma Keyed.fits {name behind : List Char} {l : Layout.Line} (h : Keyed name behind l) :
    Fits l.level l :=
  ⟨rfl, h.begins, h.noFeed, h.lineProblems_eq_nil 0 false⟩

/-- The stages that lines seem to name. -/
def stagesOf (doc : List Layout.Line) : List (List Char) :=
  doc.filterMap fun l => stageOf? (standing l)

lemma Keyed.isTopLevel_eq_true {name behind : List Char} {l : Layout.Line}
    (h : Keyed name behind l) (hlevel : l.level = 0) : (standing l).isTopLevel = true := by
  have hindent : (standing l).indent = 0 := by
    have hspaces : (standing l).indent = l.level * levelWidth := leadingSpaces_shown h.begins
    rw [hspaces, hlevel, Nat.zero_mul]
  have htrim : IsEntry name (Text.trimEnd behind) (standing l).trimmed := by
    have hshown : (standing l).trimmed = trim l.text := trim_shown h.begins
    rw [hshown, h.begins.trim_eq]
    exact h.entry.trimEnd
  rw [Line.isTopLevel, htrim.isStructural h.name rfl, hindent]
  rfl

lemma Fits.isTopLevel_eq_false {level : Nat} {l : Layout.Line} (h : Fits level l)
    (hlevel : 0 < level) : (standing l).isTopLevel = false := by
  have hindent : ((standing l).indent == 0) = false := by
    have hspaces : (standing l).indent = l.level * levelWidth := leadingSpaces_shown h.begins
    rw [hspaces, h.level_eq, levelWidth, beq_eq_false_iff_ne]
    omega
  rw [Line.isTopLevel, hindent, Bool.and_false]

lemma Fits.topKeys_eq_nil {level : Nat} {l : Layout.Line} (h : Fits level l) (hlevel : 0 < level) :
    topKeys [standing l] = [] := by
  rw [topKeys, List.filter_cons_of_neg (by simp [h.isTopLevel_eq_false hlevel]), List.filter_nil]
  rfl

/-- What the linter makes of a part of a document whose lines all stand outside of blocks: all are
well-formed, some are keys that are not indented, and some seem to name stages. -/
structure Reads (level : Nat) (keys stages : List (List Char)) (doc : List Layout.Line) : Prop where
  flush : Flush level doc
  sound : ∀ l ∈ doc, lineProblems (standing l) = []
  keys_eq : topKeys (doc.map standing) = keys
  stages_eq : stagesOf doc = stages

namespace Reads

variable {level level' : Nat} {keys keys' stages stages' : List (List Char)}
  {l : Layout.Line} {front back doc : List Layout.Line}

lemma nil : Reads level [] [] [] := ⟨.nil, by simp, rfl, rfl⟩

lemma append (hfront : Reads level keys stages front) (hback : Reads level keys' stages' back) :
    Reads level (keys ++ keys') (stages ++ stages') (front ++ back) where
  flush := hfront.flush.append hback.flush
  sound := List.forall_mem_append.2 ⟨hfront.sound, hback.sound⟩
  keys_eq := by rw [List.map_append, topKeys_append, hfront.keys_eq, hback.keys_eq]
  stages_eq := by
    rw [stagesOf, List.filterMap_append]
    exact congrArg₂ (· ++ ·) hfront.stages_eq hback.stages_eq

lemma flatMap {α : Type} {xs : List α} {keys stages : α → List (List Char)}
    {f : α → List Layout.Line} (h : ∀ x ∈ xs, Reads level (keys x) (stages x) (f x)) :
    Reads level (xs.flatMap keys) (xs.flatMap stages) (xs.flatMap f) := by
  induction xs with
  | nil => exact nil
  | cons x rest ih =>
    rw [List.flatMap_cons, List.flatMap_cons, List.flatMap_cons]
    exact (h x List.mem_cons_self).append (ih fun y hy => h y (List.mem_cons_of_mem _ hy))

lemma ite {c : Prop} [Decidable c] (ht : c → Reads level keys stages front)
    (he : ¬c → Reads level keys stages back) :
    Reads level keys stages (if c then front else back) := by
  split
  · exact ht ‹_›
  · exact he ‹_›

lemma append_blank (h : Reads level keys stages doc) :
    Reads level keys stages (doc ++ [Layout.blank]) := by
  have hblank : Reads level [] [] [Layout.blank] := ⟨.blank, by decide, by decide, by decide⟩
  have hdoc := h.append hblank
  rwa [List.append_nil, List.append_nil] at hdoc

lemma option_line {α : Type} {o : Option α} {f : α → Layout.Line}
    (h : ∀ x ∈ o, Reads level [] [] [f x]) : Reads level [] [] (o.map f).toList := by
  cases o with
  | none => exact nil
  | some x => exact h x rfl

/-- Lines that are indented alike. -/
lemma lines (hlevel : 0 < level) (h : ∀ l ∈ doc, Fits level l) :
    Reads level [] (stagesOf doc) doc where
  flush := .lines fun l hl => ⟨(h l hl).level_eq, (h l hl).begins, (h l hl).noFeed⟩
  sound l hl := (h l hl).sound
  keys_eq := by
    have hnone : (doc.map standing).filter Line.isTopLevel = [] := by
      rw [List.filter_eq_nil_iff]
      intro l hl
      obtain ⟨l, hdoc, rfl⟩ := List.mem_map.1 hl
      simp [(h l hdoc).isTopLevel_eq_false hlevel]
    rw [topKeys, hnone]
    rfl
  stages_eq := rfl

/-- Lines that are indented alike, of which none seems to name a stage. -/
lemma silent (hlevel : 0 < level)
    (h : ∀ l ∈ doc, Fits level l ∧ stageOf? (standing l) = none) : Reads level [] [] doc := by
  have hlines := lines hlevel fun l hl => (h l hl).1
  have hnone : stagesOf doc = [] := List.filterMap_eq_nil_iff.2 fun l hl => (h l hl).2
  rwa [hnone] at hlines

/-- A line with lines further right below it. -/
lemma under (h : Fits l.level l) (hopen : opensBlock (trim l.text) = false) (hle : l.level ≤ level)
    (hdoc : Reads level keys stages doc) :
    Reads l.level (topKeys [standing l] ++ keys) (stagesOf [l] ++ stages) (l :: doc) where
  flush := .under h.begins h.noFeed hopen hle hdoc.flush
  sound := List.forall_mem_cons.2 ⟨h.sound, hdoc.sound⟩
  keys_eq := by
    rw [List.map_cons, ← hdoc.keys_eq]
    exact topKeys_append [standing l] _
  stages_eq := by
    rw [← hdoc.stages_eq]
    exact List.filterMap_append (l := [l])

lemma self (h : Reads level keys stages doc) : Reads level keys (stagesOf doc) doc := by
  rw [h.stages_eq]
  exact h

/-- An entry that is none of a stage. -/
lemma keyed {name behind : List Char} (h : Keyed name behind l) (hlevel : 0 < l.level)
    (hname : name ≠ "stage".toList) : Reads l.level [] [] [l] :=
  silent hlevel (List.forall_mem_singleton.2 ⟨h.fits, h.stageOf?_eq_none hname⟩)

/-- A key with lines below it. -/
lemma opening {name : List Char} (h : Keyed name [] l) (hle : l.level ≤ level)
    (hdoc : Reads level keys stages doc) :
    Reads l.level ((if l.level = 0 then [name] else []) ++ keys) stages (l :: doc) := by
  have hblock := under h.fits (h.entry.opensBlock_eq_false h.name) hle hdoc
  have hstages : stagesOf [l] = [] := by
    rw [stagesOf, List.filterMap_cons, h.stageOf?_opens, List.filterMap_nil]
  have hkeys : topKeys [standing l] = if l.level = 0 then [name] else [] := by
    split
    case isTrue hzero =>
      rw [topKeys, List.filter_cons_of_pos (h.isTopLevel_eq_true hzero), List.filter_nil,
        List.filterMap_cons, Line.key?, standing, h.keyAndRest?_eq 0]
      rfl
    case isFalse hpos =>
      exact h.fits.topKeys_eq_nil (Nat.pos_of_ne_zero hpos)
  rwa [hstages, hkeys] at hblock

/-- The problems that the linter reports for a whole document. -/
theorem problems_report (h : Reads 0 keys stages doc) (hbegins : ∃ l ∈ doc, Begins l.text)
    (hon : "on".toList ∉ keys) (hstages : "stages".toList ∈ keys) :
    (report (write doc)).problems.map (·.cause) =
      (stages.filter fun s => !(declaredStages (doc.map standing)).contains s).map
        fun s => .undeclaredStage (String.ofList s) := by
  have hscan := h.flush.scan_write
  have hkeys : topKeys (scan (write doc)) = keys := by rw [← topKeys_bare, hscan, h.keys_eq]
  have hnamed : (scan (write doc)).filterMap stageOf? = stages := by
    have hbare : (scan (write doc)).filterMap stageOf? =
        ((scan (write doc)).map Line.bare).filterMap stageOf? := by
      rw [List.filterMap_map]
      exact List.filterMap_congr fun l _ => (stageOf?_bare l).symm
    rw [hbare, hscan, List.filterMap_map]
    exact h.stages_eq
  have hsound : (scan (write doc)).flatMap lineProblems = [] := by
    refine List.flatMap_eq_nil_iff.2 fun l hl => ?_
    obtain ⟨l', hl', heq⟩ := List.mem_map.1 (hscan ▸ List.mem_map_of_mem hl)
    exact (lineProblems_bare l).1 (heq ▸ h.sound l' hl')
  have hworkflow : hasTopLevelKey (scan (write doc)) "on" = false := by
    rw [← Bool.not_eq_true, hasTopLevelKey_iff, hkeys]
    exact hon
  have hstaged : hasTopLevelKey (scan (write doc)) "stages" = true := by
    rw [hasTopLevelKey_iff, hkeys]
    exact hstages
  rw [report, isBlank_write hbegins]
  simp only [Bool.false_eq_true, if_false, reportLines, hsound, hworkflow, hstaged, if_true,
    List.nil_append]
  rw [map_cause_stageProblems, hnamed, ← declaredStages_bare, hscan]

end Reads

end Pipework.Lint
