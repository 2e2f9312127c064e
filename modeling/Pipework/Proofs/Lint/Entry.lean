import Pipework.Lint.Rules
import Pipework.Proofs.Lint.Scan
import Pipework.Proofs.Yaml.Inline

/-!
# Entries as the linter reads them

Keys that are identifiers stand in a document as they are or between single quotes
(`keyOf_scalar`).  `IsEntry name behind text` says that a text is such a key with a colon and what
is `behind` it, perhaps with the dash of a list in front.  The linter takes the line of such a text
for well-formed (`IsEntry.hasValidShape_trim`) and finds the key in it (`IsEntry.keyAndRest?_eq`),
whatever the value is: comments are cut off and ends are trimmed behind the colon only.
-/

namespace Pipework.Lint

open Text Yaml

/-! ## Identifiers -/

/-- The characters of identifiers. -/
def isIdentifierPart (c : Char) : Bool := c.isAlphanum || c == '_' || c == '-'

/-- An identifier: a letter or an underscore, then letters, digits, underscores and dashes. -/
def isIdentifier : List Char → Bool
  | c :: rest => (c.isAlpha || c == '_') && rest.all isIdentifierPart
  | [] => false

/-- Characters that are not in identifiers. -/
def separators : List Char := [' ', '\t', '\n', '\r', ':', '#', '\'', '"']

lemma isIdentifierPart_iff {c : Char} : isIdentifierPart c = true ↔ isWord c = true ∨ c = '-' := by
  simp [isIdentifierPart, isWord]

/-- The characters of identifiers are printable, and neither white space nor marks. -/
lemma inert_of_isIdentifierPart {c : Char} (h : isIdentifierPart c = true) :
    isTame c = true ∧ isSpace c = false ∧ c ∉ separators := by
  rcases isIdentifierPart_iff.1 h with hword | rfl
  · obtain ⟨hlow, hhigh, hcolon⟩ := toNat_of_isWord hword
    refine ⟨isTame_of_isWord hword, ?_, ?_⟩
    · simp only [isSpace, Bool.or_eq_false_iff, Bool.and_eq_false_iff, decide_eq_false_iff_not,
        beq_eq_false_iff_ne]
      omega
    · intro hmem
      simp only [separators, List.mem_cons, List.not_mem_nil, or_false] at hmem
      rcases hmem with rfl | rfl | rfl | rfl | rfl | rfl | rfl | rfl <;>
        revert hlow hcolon <;> decide
  · decide

/-- An identifier begins as a key may. -/
lemma exists_of_isIdentifier {name : List Char} (h : isIdentifier name = true) :
    ∃ c rest, name = c :: rest ∧ startsKey c = true ∧ c ≠ '-' ∧
      ∀ d ∈ name, isIdentifierPart d = true := by
  cases name with
  | nil => cases h
  | cons c rest =>
    simp only [isIdentifier, Bool.and_eq_true, List.all_eq_true, Bool.or_eq_true, beq_iff_eq] at h
    obtain ⟨hfirst, hrest⟩ := h
    refine ⟨c, rest, rfl, ?_, ?_, List.forall_mem_cons.2 ⟨?_, hrest⟩⟩
    · rcases hfirst with halpha | rfl
      · simp [startsKey, Char.isAlphanum, halpha]
      · rfl
    · rintro rfl
      exact absurd hfirst (by decide)
    · rcases hfirst with halpha | rfl
      · simp [isIdentifierPart, Char.isAlphanum, halpha]
      · rfl

lemma inert_of_isIdentifier {name : List Char} (h : isIdentifier name = true) :
    ∀ c ∈ name, isTame c = true ∧ isSpace c = false ∧ c ∉ separators := by
  obtain ⟨_, _, _, _, _, hparts⟩ := exists_of_isIdentifier h
  exact fun c hc => inert_of_isIdentifierPart (hparts c hc)

/-! ## Written keys -/

/-- A key as it is written: as it stands, or between single quotes. -/
inductive KeyOf (name : List Char) : List Char → Prop where
  | plain : KeyOf name name
  | quoted : KeyOf name ('\'' :: (name ++ ['\'']))

lemma singleAllowed_of_isTame {s : List Char} (h : ∀ c ∈ s, isTame c = true) (hspace : ' ' ∉ s) :
    singleAllowed s = true := by
  have htame : ∀ c ∈ s, isPrintable c = true ∧ isBreak c = false := by
    intro c hc
    have hc' := h c hc
    simp only [isTame, Bool.and_eq_true, Bool.not_eq_true'] at hc'
    exact hc'.1.1
  have hfolded : hasPair isBreak (· == ' ') s = false :=
    hasPair_of_forall_not fun c hc => beq_eq_false_iff_ne.2 fun heq => hspace (heq ▸ hc)
  have hhanging : hasPair (· == ' ') isBreak s = false :=
    hasPair_of_forall_not fun c hc => (htame c hc).2
  have hprint : s.any (!isPrintable ·) = false :=
    List.any_eq_false.2 fun c hc => by simp [(htame c hc).1]
  rw [singleAllowed, hfolded, needsEscapes, hhanging, hprint]
  rfl

lemma writeSingle_of_isTame {s : List Char} (h : ∀ c ∈ s, isTame c = true) (hquote : '\'' ∉ s)
    (indent : Nat) : writeSingle indent s = '\'' :: (s ++ ['\'']) := by
  have hflat : Flat s := by
    intro c hc
    have hc' := h c hc
    simp only [isTame, Bool.and_eq_true, Bool.not_eq_true'] at hc'
    exact .inr hc'.1.1
  have hquotes : s.flatMap doubleSingleQuote = s := by
    rw [List.flatMap_congr fun c hc => doubleSingleQuote_of_ne fun heq => hquote (heq ▸ hc)]
    exact List.flatMap_singleton' s
  rw [writeSingle, singleBody_eq_flatMap hflat, hquotes, List.cons_append]

/-- An identifier is written as it stands or between single quotes. -/
theorem keyOf_scalar {name : List Char} (h : isIdentifier name = true) :
    KeyOf name (scalar name) := by
  have hinert := inert_of_isIdentifier h
  have hmarks : ∀ d ∈ separators, d ∉ name := fun d hd hmem => (hinert d hmem).2.2 hd
  have htame : ∀ c ∈ name, isTame c = true := fun c hc => (hinert c hc).1
  have hsingle := singleAllowed_of_isTame htame (hmarks ' ' (by decide))
  have hany : name.any (fun c => c == '\n' || c == '\r') = false := by
    refine List.any_eq_false.2 fun c hc => ?_
    have hfeed : c ≠ '\n' := fun heq => hmarks '\n' (by decide) (heq ▸ hc)
    have hreturn : c ≠ '\r' := fun heq => hmarks '\r' (by decide) (heq ▸ hc)
    simp [hfeed, hreturn]
  have hfeed : name.contains '\n' = false := by
    rw [List.contains_eq_mem, decide_eq_false_iff_not]
    exact hmarks '\n' (by decide)
  have hform : form name = .plain ∨ form name = .single := by
    unfold form
    rw [hfeed, hsingle]
    split
    · contradiction
    · split <;> simp
  rw [scalar, hany]
  simp only [writeInline]
  rcases hform with hform | hform
  · rw [hform]
    exact .plain
  · rw [hform]
    simp only [writeSingle_of_isTame htame (hmarks '\'' (by decide))]
    exact .quoted

/-- Characters that keys have neither in front nor inside. -/
lemma KeyOf.inert {name key : List Char} (h : KeyOf name key) (hname : isIdentifier name = true) :
    ∀ c ∈ key, isSpace c = false ∧ c ≠ ':' ∧ c ≠ '#' := by
  have hinert : ∀ c ∈ name, isSpace c = false ∧ c ≠ ':' ∧ c ≠ '#' := by
    intro c hc
    obtain ⟨-, hspace, hmarks⟩ := inert_of_isIdentifier hname c hc
    exact ⟨hspace, fun heq => hmarks (heq ▸ by decide), fun heq => hmarks (heq ▸ by decide)⟩
  cases h with
  | plain => exact hinert
  | quoted =>
    intro c hc
    rw [List.mem_cons, List.mem_append, List.mem_singleton] at hc
    rcases hc with rfl | hc | rfl
    · decide
    · exact hinert c hc
    · decide

lemma KeyOf.oneLine {name key : List Char} (h : KeyOf name key) (hname : isIdentifier name = true) :
    OneLine key := by
  intro c hc
  have hspace := (h.inert hname c hc).1
  constructor
  · rintro rfl
    exact absurd hspace (by decide)
  · rintro rfl
    exact absurd hspace (by decide)

lemma KeyOf.exists_cons {name key : List Char} (h : KeyOf name key)
    (hname : isIdentifier name = true) : ∃ c rest, key = c :: rest ∧ c ≠ '-' := by
  cases h with
  | plain =>
    obtain ⟨c, rest, rfl, -, hdash, -⟩ := exists_of_isIdentifier hname
    exact ⟨c, rest, rfl, hdash⟩
  | quoted => exact ⟨_, _, rfl, by decide⟩

/-- The quotes around a key are taken off. -/
lemma KeyOf.unquote {name key : List Char} (h : KeyOf name key) (hname : isIdentifier name = true) :
    Line.unquote key = name := by
  obtain ⟨c, rest, rfl, -, -, -⟩ := exists_of_isIdentifier hname
  have hquotes : ∀ d ∈ c :: rest, (d == '"' || d == '\'') = false := by
    intro d hd
    have hmarks := (inert_of_isIdentifier hname d hd).2.2
    have hsingle : d ≠ '\'' := fun heq => hmarks (heq ▸ by decide)
    have hdouble : d ≠ '"' := fun heq => hmarks (heq ▸ by decide)
    simp [hsingle, hdouble]
  have hfront : (c :: rest).dropWhile (fun d => d == '"' || d == '\'') = c :: rest :=
    List.dropWhile_cons_of_neg (by simp [hquotes c List.mem_cons_self])
  have hback : dropEndWhile (fun d => d == '"' || d == '\'') (c :: rest) = c :: rest :=
    dropEndWhile_eq_self hquotes
  cases h with
  | plain => rw [Line.unquote, dropAround, hfront, hback]
  | quoted =>
    rw [Line.unquote, dropAround, List.dropWhile_cons_of_pos (by decide), List.cons_append,
      List.dropWhile_cons_of_neg (by simp [hquotes c List.mem_cons_self]), ← List.cons_append,
      dropEndWhile_append (by simp), hback]

/-- A key and its colon have the form that keys must have. -/
lemma KeyOf.isKeyValue {name key : List Char} (h : KeyOf name key)
    (hname : isIdentifier name = true) (behind : List Char) :
    isKeyValue (key ++ ':' :: behind) = endsKey behind := by
  have hinert := h.inert hname
  cases h with
  | plain =>
    obtain ⟨c, rest, rfl, hstarts, -, -⟩ := exists_of_isIdentifier hname
    have hrest : ':' ∉ rest := fun hmem => (hinert ':' (List.mem_cons_of_mem _ hmem)).2.1 rfl
    have hquotes : (c == '"' || c == '\'') = false := by
      have hmarks := (inert_of_isIdentifier hname c List.mem_cons_self).2.2
      have hsingle : c ≠ '\'' := fun heq => hmarks (heq ▸ by decide)
      have hdouble : c ≠ '"' := fun heq => hmarks (heq ▸ by decide)
      simp [hsingle, hdouble]
    rw [List.cons_append, Lint.isKeyValue, hquotes, cut?_singleton hrest, hstarts]
    rfl
  | quoted =>
    have hquote : '\'' ∉ name := fun hmem =>
      (inert_of_isIdentifier hname _ hmem).2.2 (by decide)
    rw [List.cons_append, List.append_assoc, List.singleton_append, Lint.isKeyValue,
      cut?_singleton hquote]
    rfl

/-! ## Entries -/

/-- What stands behind a colon: nothing, or something after a space. -/
def Behind (s : List Char) : Prop := ∀ c ∈ s.head?, c = ' '

lemma behind_nil : Behind [] := by simp [Behind]

lemma behind_space (s : List Char) : Behind (' ' :: s) := by simp [Behind]

lemma Behind.of_isPrefix {s t : List Char} (h : Behind s) (hpre : t <+: s) : Behind t := by
  obtain ⟨rest, rfl⟩ := hpre
  cases t with
  | nil => exact behind_nil
  | cons c t => exact h

lemma Behind.endsKey {s : List Char} (h : Behind s) : endsKey s = true := by
  cases s with
  | nil => rfl
  | cons c s =>
    rw [h c rfl]
    rfl

/-- A text that is a key with a colon and what is behind it, perhaps with a dash in front. -/
inductive IsEntry (name behind : List Char) : List Char → Prop where
  | plain {key : List Char} (h : KeyOf name key) : IsEntry name behind (key ++ ':' :: behind)
  | item {key : List Char} (h : KeyOf name key) :
    IsEntry name behind ('-' :: ' ' :: (key ++ ':' :: behind))

namespace IsEntry

variable {name behind text : List Char}

lemma begins (h : IsEntry name behind text) (hname : isIdentifier name = true) : Begins text := by
  cases h with
  | plain h =>
    obtain ⟨c, rest, rfl, -⟩ := h.exists_cons hname
    exact ⟨c, _, rfl, ((h.inert hname) c List.mem_cons_self).1⟩
  | item h => exact ⟨'-', _, rfl, by decide⟩

/-- Trimming shortens what is behind the colon. -/
lemma trimEnd (h : IsEntry name behind text) : IsEntry name (trimEnd behind) (trimEnd text) := by
  cases h with
  | plain h =>
    rw [trimEnd_append_cons (by decide)]
    exact .plain h
  | @item key h =>
    have htrim := trimEnd_append_cons (c := ':') (by decide) ('-' :: ' ' :: key) behind
    rw [List.cons_append, List.cons_append] at htrim
    rw [htrim]
    exact .item h

lemma withoutComment_key {key : List Char} (h : KeyOf name key) (hname : isIdentifier name = true) :
    Lint.withoutComment (key ++ ':' :: behind) = key ++ ':' :: Lint.withoutComment behind := by
  have hspace : ' ' ∉ key ++ [':'] := by
    rw [List.mem_append, not_or]
    exact ⟨fun hmem => absurd (h.inert hname ' ' hmem).1 (by decide), by decide⟩
  have hbefore := before_append hspace ['#'] behind
  rwa [List.append_assoc, List.append_assoc, List.singleton_append] at hbefore

lemma withoutComment_dash {c : Char} (h : c ≠ '#') (s : List Char) :
    Lint.withoutComment ('-' :: ' ' :: c :: s) = '-' :: ' ' :: Lint.withoutComment (c :: s) := by
  have hfirst := before_append (x := ' ') (s := ['-']) (by decide) ['#'] (' ' :: c :: s)
  rw [List.singleton_append, List.singleton_append, before_cons_cons h] at hfirst
  exact hfirst

/-- So does cutting off a comment. -/
lemma withoutComment (h : IsEntry name behind text) (hname : isIdentifier name = true) :
    IsEntry name (withoutComment behind) (withoutComment text) := by
  cases h with
  | plain h =>
    rw [withoutComment_key h hname]
    exact .plain h
  | item h =>
    obtain ⟨c, rest, rfl, -⟩ := h.exists_cons hname
    rw [List.cons_append, withoutComment_dash (h.inert hname c List.mem_cons_self).2.2,
      ← List.cons_append, withoutComment_key h hname]
    exact .item h

/-- The line is well-formed, with its comment or without. -/
theorem hasValidShape_trim (h : IsEntry name behind text) (hname : isIdentifier name = true)
    (hbehind : Behind behind) : hasValidShape (trim text) = true := by
  have htrim : IsEntry name (Text.trimEnd behind) (trim text) := by
    rw [(h.begins hname).trim_eq]
    exact h.trimEnd
  have hcode := (htrim.withoutComment hname).trimEnd
  have hends : endsKey (Text.trimEnd (Lint.withoutComment (Text.trimEnd behind))) = true :=
    (((hbehind.of_isPrefix (trimEnd_isPrefix _)).of_isPrefix (before_isPrefix _ _)).of_isPrefix
      (trimEnd_isPrefix _)).endsKey
  unfold hasValidShape
  generalize Text.trimEnd (Lint.withoutComment (trim text)) = code at hcode
  generalize Text.trimEnd (Lint.withoutComment (Text.trimEnd behind)) = rest at hcode hends
  cases hcode with
  | @plain key h =>
    obtain ⟨c, rest', rfl, hdash⟩ := h.exists_cons hname
    have hcolon : (c :: rest' ++ ':' :: rest).contains ':' = true := by simp
    have hitem : ['-', ' '].isPrefixOf? (c :: rest' ++ ':' :: rest) = none :=
      isPrefixOf?_cons_of_ne hdash _ _
    simp only [hcolon, hitem, h.isKeyValue hname, hends]
    simp
  | @item key h =>
    have hcolon : ('-' :: ' ' :: (key ++ ':' :: rest)).contains ':' = true := by simp
    have hitem : ['-', ' '].isPrefixOf? ('-' :: ' ' :: (key ++ ':' :: rest)) =
        some (key ++ ':' :: rest) := by simp [List.isPrefixOf?]
    have hstart : trimStart (key ++ ':' :: rest) = key ++ ':' :: rest := by
      obtain ⟨c, rest', rfl, -⟩ := h.exists_cons hname
      exact List.dropWhile_cons_of_neg (by simp [(h.inert hname c List.mem_cons_self).1])
    simp only [hcolon, hitem, hstart, h.isKeyValue hname, hends]
    simp

/-- The line is part of the document's structure where it is no part of a block. -/
lemma isStructural {l : Line} (h : IsEntry name behind l.trimmed) (hname : isIdentifier name = true)
    (hblock : l.inBlock = false) : l.isStructural = true := by
  unfold Line.isStructural Line.isBlank Line.isComment
  rw [hblock]
  generalize l.trimmed = t at h
  cases h with
  | plain h =>
    obtain ⟨c, rest, rfl, -⟩ := h.exists_cons hname
    simp [(h.inert hname c List.mem_cons_self).2.2]
  | item h => rfl

/-- Where the line is no part of a block, its key is the one that was written. -/
theorem keyAndRest?_eq (h : IsEntry name behind text) (hname : isIdentifier name = true)
    (hbehind : Behind behind) {l : Line} (htrim : l.trimmed = trim text)
    (hblock : l.inBlock = false) : l.keyAndRest? = some (name, Text.trimEnd behind) := by
  have hentry : IsEntry name (Text.trimEnd behind) l.trimmed := by
    rw [htrim, (h.begins hname).trim_eq]
    exact h.trimEnd
  have hrest :
      ((Text.trimEnd behind).isEmpty || (Text.trimEnd behind).head?.any isSpace) = true := by
    have hbehind' := hbehind.of_isPrefix (trimEnd_isPrefix _)
    cases hb : Text.trimEnd behind with
    | nil => rfl
    | cons c rest =>
      rw [hb] at hbehind'
      rw [hbehind' c rfl]
      rfl
  obtain ⟨key, hkey, hbody⟩ :
      ∃ key, KeyOf name key ∧ l.body = key ++ ':' :: Text.trimEnd behind := by
    unfold Line.body
    generalize l.trimmed = t at hentry
    cases hentry with
    | @plain key hkey =>
      obtain ⟨c, rest, rfl, hdash⟩ := hkey.exists_cons hname
      have hitem : ['-', ' '].isPrefixOf? (c :: rest ++ ':' :: Text.trimEnd behind) = none :=
        isPrefixOf?_cons_of_ne hdash _ _
      exact ⟨_, hkey, by rw [hitem, Option.getD_none]⟩
    | @item key hkey => exact ⟨key, hkey, by simp [List.isPrefixOf?]⟩
  have hinert := hkey.inert hname
  have hcut : cut? [':'] l.body = some (key, Text.trimEnd behind) := by
    rw [hbody]
    exact cut?_singleton (fun hmem => (hinert ':' hmem).2.1 rfl) _
  obtain ⟨c, rest, rfl, -⟩ := hkey.exists_cons hname
  have htrimKey : trim (c :: rest) = c :: rest := by
    rw [trim_cons (hinert c List.mem_cons_self).1, Text.trimEnd,
      dropEndWhile_eq_self fun d hd => (hinert d (List.mem_cons_of_mem _ hd)).1]
  have hspaces : (c :: rest).any isSpace = false :=
    List.any_eq_false.2 fun d hd => by simp [(hinert d hd).1]
  unfold Line.keyAndRest?
  simp only [hentry.isStructural hname hblock, hcut, htrimKey, hrest, hspaces,
    hkey.unquote hname]
  rfl

/-- Where the colon of an entry stands. -/
lemma exists_front (h : IsEntry name behind text) (hname : isIdentifier name = true) :
    ∃ front, ':' ∉ front ∧ text = front ++ ':' :: behind := by
  cases h with
  | @plain key h => exact ⟨key, fun hmem => (h.inert hname _ hmem).2.1 rfl, rfl⟩
  | @item key h =>
    refine ⟨'-' :: ' ' :: key, fun hmem => ?_, rfl⟩
    simp only [List.mem_cons] at hmem
    rcases hmem with hdash | hspace | hmem
    · exact absurd hdash (by decide)
    · exact absurd hspace (by decide)
    · exact (h.inert hname _ hmem).2.1 rfl

/-- An entry without a value opens no block scalar. -/
lemma opensBlock_eq_false (h : IsEntry name [] text) (hname : isIdentifier name = true) :
    opensBlock (trim text) = false := by
  have htrim := h.trimEnd
  rw [← (h.begins hname).trim_eq] at htrim
  obtain ⟨front, hcolon, htext⟩ := htrim.exists_front hname
  have hcut : cut? [':', ' '] (trim text) = none := by
    rw [htext, cut?_append hcolon]
    rfl
  rw [opensBlock, hcut, Bool.and_false]

/-- Nor does one whose value begins with something else than a bar or an angle. -/
lemma opensBlock_eq_false_of_cons {c : Char} {rest : List Char}
    (h : IsEntry name (' ' :: c :: rest) text) (hname : isIdentifier name = true)
    (hspace : isSpace c = false) (hbar : c ≠ '|') (hangle : c ≠ '>') :
    opensBlock (trim text) = false := by
  have htrim := h.trimEnd
  have hbehind := trimEnd_append_cons hspace [' '] rest
  rw [List.singleton_append, List.singleton_append] at hbehind
  rw [← (h.begins hname).trim_eq, hbehind] at htrim
  obtain ⟨front, hcolon, htext⟩ := htrim.exists_front hname
  have hcut : cut? [':', ' '] (trim text) = some (front, c :: Text.trimEnd rest) := by
    rw [htext, cut?_append hcolon, cut?]
    simp [List.isPrefixOf?]
  have hblank : ' ' ∉ [c] := by
    intro hmem
    obtain rfl := List.mem_singleton.1 hmem
    exact absurd hspace (by decide)
  have hcode : before [' ', '#'] (c :: Text.trimEnd rest) =
      c :: before [' ', '#'] (Text.trimEnd rest) :=
    before_append hblank ['#'] _
  rw [opensBlock, hcut]
  simp only [hcode, trim_cons hspace]
  simp [isBlockMark, hbar, hangle]

end IsEntry

/-! ## List items that are scalars -/

lemma cut?_colon_eq_none {s : List Char} {before : Option Char}
    (h : hasInnerIndicator before s = false) : cut? [':', ' '] s = none := by
  induction s generalizing before with
  | nil => rfl
  | cons c rest ih =>
    simp only [hasInnerIndicator, Bool.or_eq_false_iff, Bool.and_eq_false_iff] at h
    obtain ⟨⟨-, hcolon⟩, hrest⟩ := h
    have hsep : [':', ' '].isPrefixOf? (c :: rest) = none := by
      rcases hcolon with hc | hblank
      · exact isPrefixOf?_cons_of_ne (beq_eq_false_iff_ne.1 hc) _ _
      · cases rest with
        | nil => simp [isBlankOrEnd] at hblank
        | cons d rest =>
          have hspace : d ≠ ' ' := by
            rintro rfl
            simp [isBlankOrEnd] at hblank
          simp [List.isPrefixOf?, Ne.symm hspace]
    rw [cut?, hsep, ih hrest]
    rfl

lemma cut?_comment_eq_none {s : List Char} {before : Option Char}
    (h : hasInnerIndicator before s = false) : cut? [' ', '#'] s = none := by
  induction s generalizing before with
  | nil => rfl
  | cons c rest ih =>
    rw [hasInnerIndicator, Bool.or_eq_false_iff] at h
    have hsep : [' ', '#'].isPrefixOf? (c :: rest) = none := by
      by_cases hc : c = ' '
      · cases rest with
        | nil => simp [List.isPrefixOf?]
        | cons d rest =>
          have hhash : d ≠ '#' := by
            rintro rfl
            simp [hc, hasInnerIndicator, isBlankOrEnd] at h
          simp [List.isPrefixOf?, Ne.symm hhash]
      · exact isPrefixOf?_cons_of_ne hc _ _
    rw [cut?, hsep, ih h.2]
    rfl

lemma getLast?_ne_colon {s : List Char} {before : Option Char}
    (h : hasInnerIndicator before s = false) : s.getLast? ≠ some ':' := by
  induction s generalizing before with
  | nil => simp
  | cons c rest ih =>
    rw [hasInnerIndicator, Bool.or_eq_false_iff, Bool.or_eq_false_iff] at h
    cases rest with
    | nil => simpa [isBlankOrEnd] using h.1.2
    | cons d rest =>
      rw [List.getLast?_cons_cons]
      exact ih h.2

lemma head?_ne_hash {s : List Char} (h : Plain s) : s.head? ≠ some '#' := by
  intro hhead
  obtain ⟨rest, rfl⟩ := List.head?_eq_some_iff.1 hhead
  have hindicator := h.hasIndicator_eq_false
  simp [hasIndicator, hasLeadingIndicator] at hindicator

lemma trim_dash {c : Char} (hc : isSpace c = false) (t : List Char) :
    trim ('-' :: ' ' :: c :: t) = '-' :: ' ' :: c :: trimEnd t := by
  rw [trim_cons (by decide)]
  exact congrArg ('-' :: ·) (trimEnd_append_cons hc [' '] t)

/-- An item between quotes is well-formed. -/
lemma hasValidShape_item_quoted {q : Char} (hq : q = '\'' ∨ q = '"') (rest : List Char) :
    hasValidShape ('-' :: ' ' :: q :: rest) = true := by
  have hspace : isSpace q = false := by rcases hq with rfl | rfl <;> decide
  have hhash : q ≠ '#' := by rcases hq with rfl | rfl <;> decide
  have hcode : ∃ r, trimEnd (withoutComment ('-' :: ' ' :: q :: rest)) = '-' :: ' ' :: q :: r := by
    have hblank : ' ' ∉ [q] := by rcases hq with rfl | rfl <;> decide
    have hbefore := before_append hblank ['#'] rest
    rw [List.singleton_append, List.singleton_append] at hbefore
    rw [IsEntry.withoutComment_dash hhash, withoutComment, hbefore]
    exact ⟨_, trimEnd_append_cons hspace ['-', ' '] _⟩
  obtain ⟨r, hr⟩ := hcode
  have hstarts : startsFlowOrQuote (trimStart (q :: r)) = true := by
    rw [trimStart, List.dropWhile_cons_of_neg (by simp [hspace])]
    rcases hq with rfl | rfl <;> rfl
  have hitem : ['-', ' '].isPrefixOf? ('-' :: ' ' :: q :: r) = some (q :: r) := by
    simp [List.isPrefixOf?]
  unfold hasValidShape
  rw [hr]
  simp only [hitem, hstarts, Bool.or_true, Bool.true_or]
  simp

/-- An item that stands plain is well-formed. -/
lemma hasValidShape_item_plain {s : List Char} (h : Plain s) (htrim : trim s = s) :
    hasValidShape ('-' :: ' ' :: s) = true := by
  obtain ⟨c, t, rfl, hc, ht⟩ := exists_cons_of_trim_eq_self h.ne_nil htrim
  have hinner := h.hasInnerIndicator_eq_false
  have hhash : c ≠ '#' := fun heq => head?_ne_hash h (by rw [heq, List.head?_cons])
  have hcomment : withoutComment (c :: t) = c :: t := by
    rw [withoutComment, before, cut?_comment_eq_none hinner]
    rfl
  have hcode : trimEnd (withoutComment ('-' :: ' ' :: c :: t)) = '-' :: ' ' :: c :: t := by
    have hend := trimEnd_append_cons hc ['-', ' '] t
    rw [ht] at hend
    rw [IsEntry.withoutComment_dash hhash, hcomment]
    exact hend
  have hitem : ['-', ' '].isPrefixOf? ('-' :: ' ' :: c :: t) = some (c :: t) := by
    simp [List.isPrefixOf?]
  have hstart : trimStart (c :: t) = c :: t := List.dropWhile_cons_of_neg (by simp [hc])
  have hcolon : contains [':', ' '] (c :: t) = false := by
    rw [contains, cut?_colon_eq_none hinner]
    rfl
  have hlast : ((c :: t).getLast? == some ':') = false :=
    beq_eq_false_iff_ne.2 (getLast?_ne_colon hinner)
  unfold hasValidShape
  rw [hcode]
  simp only [hitem, hstart, hcolon, hlast]
  simp

/-- A list item that is a string without white space around it is well-formed, however the string
is written. -/
theorem hasValidShape_item_scalar {s : List Char} (htrim : trim s = s) :
    hasValidShape (trim ('-' :: ' ' :: scalar s)) = true := by
  rcases scalar_eq_self_or_quoted s with ⟨hplain, hscalar⟩ | ⟨q, rest, hq, hscalar⟩
  · obtain ⟨c, t, rfl, hc, ht⟩ := exists_cons_of_trim_eq_self hplain.ne_nil htrim
    rw [hscalar, trim_dash hc, ht]
    exact hasValidShape_item_plain hplain htrim
  · have hspace : isSpace q = false := by rcases hq with rfl | rfl <;> decide
    rw [hscalar, trim_dash hspace]
    exact hasValidShape_item_quoted hq _

end Pipework.Lint
