import Mathlib.Tactic.Lemma
import Pipework.Text.Quoted

/-!
# Lists of quoted strings, scanned

A scanner for lists in brackets that goes through a text once, character by character.  Inside an
item its place tells whether the next character is escaped, so that an item ends at the first quote
that no unpaired backslash precedes, and behind a backslash only the five characters that escape
something may stand.  Of a list that was written it reads the whole text and gets the items back
(`scanList_flowList`), whatever quotes, backslashes, commas and brackets are in them.
-/

namespace Pipework.Text

/-! ## What is written for a character -/

/-- The characters that are escaped, each with the one behind the backslash. -/
def escapes : List (Char × Char) :=
  [('"', '"'), ('\\', '\\'), ('\n', 'n'), ('\t', 't'), ('\r', 'r')]

/-- A character is escaped, or written as itself. -/
lemma escapeChar_cases (c : Char) :
    (∃ e, (c, e) ∈ escapes ∧ escapeChar c = ['\\', e]) ∨
      escapeChar c = [c] ∧ c ∉ ['"', '\\', '\n', '\t', '\r'] := by
  by_cases hescaped : c ∈ ['"', '\\', '\n', '\t', '\r']
  · left
    simp only [List.mem_cons, List.not_mem_nil, or_false] at hescaped
    rcases hescaped with rfl | rfl | rfl | rfl | rfl
    · exact ⟨'"', by decide, rfl⟩
    · exact ⟨'\\', by decide, rfl⟩
    · exact ⟨'n', by decide, rfl⟩
    · exact ⟨'t', by decide, rfl⟩
    · exact ⟨'r', by decide, rfl⟩
  · refine .inr ⟨?_, hescaped⟩
    simp only [List.mem_cons, List.not_mem_nil, or_false, not_or] at hescaped
    obtain ⟨hquote, hslash, hfeed, htab, hreturn⟩ := hescaped
    rw [escapeChar] <;> assumption

/-! ## The scanner -/

/-- What a character stands for behind a backslash. -/
def standsFor? : Char → Option Char
  | '"' => some '"'
  | '\\' => some '\\'
  | 'n' => some '\n'
  | 't' => some '\t'
  | 'r' => some '\r'
  | _ => none

/-- The places inside a list. -/
inductive ListPlace where
  | start
  /-- Behind the opening bracket. -/
  | opened
  /-- Inside an item, behind some of its text. -/
  | inside (text : List Char)
  /-- The same, behind a backslash that is not escaped itself. -/
  | escaping (text : List Char)
  | behindItem
  | behindComma
  /-- Behind a comma and its space. -/
  | beforeItem
  | closed
deriving Repr, DecidableEq

/-- How far a list has been scanned: the items that have ended, and the place behind them. -/
structure ListScan where
  items : List (List Char)
  place : ListPlace
deriving Repr, DecidableEq

namespace ListScan

/-- The scan behind one more character, unless that cannot stand where the scan is. -/
def step (s : ListScan) (c : Char) : Option ListScan :=
  match s.place, c with
  | .start, '[' => some { s with place := .opened }
  | .opened, '"' => some { s with place := .inside [] }
  | .opened, ']' => some { s with place := .closed }
  | .inside text, '"' => some ⟨s.items ++ [text], .behindItem⟩
  | .inside text, '\\' => some { s with place := .escaping text }
  | .inside text, c => some { s with place := .inside (text ++ [c]) }
  | .escaping text, c => (standsFor? c).map fun d => { s with place := .inside (text ++ [d]) }
  | .behindItem, ',' => some { s with place := .behindComma }
  | .behindItem, ']' => some { s with place := .closed }
  | .behindComma, ' ' => some { s with place := .beforeItem }
  | .beforeItem, '"' => some { s with place := .inside [] }
  | _, _ => none

/-- The scan behind a text. -/
def run (s : ListScan) (text : List Char) : Option ListScan := text.foldlM step s

end ListScan

/-- The items of a text that is one list from its first to its last character. -/
def scanList (text : List Char) : Option (List (List Char)) :=
  match ListScan.run ⟨[], .start⟩ text with
  | some ⟨items, .closed⟩ => some items
  | _ => none

/-! ## What was written -/

namespace ListScan

lemma run_append (s : ListScan) (text rest : List Char) :
    s.run (text ++ rest) = (s.run text).bind (run · rest) := List.foldlM_append

/-- What is written for a character adds that character to the item. -/
lemma run_escapeChar (items : List (List Char)) (text : List Char) (c : Char) :
    run ⟨items, .inside text⟩ (escapeChar c) = some ⟨items, .inside (text ++ [c])⟩ := by
  rcases escapeChar_cases c with ⟨e, he, hescape⟩ | ⟨hself, hc⟩
  · have hstands : ∀ p ∈ escapes, standsFor? p.2 = some p.1 := by decide
    have hslash : run ⟨items, .inside text⟩ ['\\'] = some ⟨items, .escaping text⟩ := rfl
    have hletter : run ⟨items, .escaping text⟩ [e] = some ⟨items, .inside (text ++ [c])⟩ := by
      simp [run, step, hstands (c, e) he]
    have hpair : ['\\', e] = ['\\'] ++ [e] := rfl
    rw [hescape, hpair, run_append, hslash, Option.bind_some, hletter]
  · simp only [List.mem_cons, List.not_mem_nil, or_false, not_or] at hc
    obtain ⟨hquote, hslash, -⟩ := hc
    have hstep : step ⟨items, .inside text⟩ c = some ⟨items, .inside (text ++ [c])⟩ := by
      simp [step]
    rw [hself, run, List.foldlM_cons, hstep]
    rfl

/-- So all of a string is added to the item, whatever is in it. -/
lemma run_flatMap (items : List (List Char)) (text s : List Char) :
    run ⟨items, .inside text⟩ (s.flatMap escapeChar) = some ⟨items, .inside (text ++ s)⟩ := by
  induction s generalizing text with
  | nil =>
    rw [List.append_nil]
    rfl
  | cons c s ih =>
    rw [List.flatMap_cons, run_append, run_escapeChar, Option.bind_some, ih, List.append_assoc,
      List.singleton_append]

/-- A quoted string is one more item wherever an item can begin. -/
lemma run_doubleQuoted {place : ListPlace} (h : place = .opened ∨ place = .beforeItem)
    (items : List (List Char)) (s : List Char) :
    run ⟨items, place⟩ (doubleQuoted s) = some ⟨items ++ [s], .behindItem⟩ := by
  have hopen : run ⟨items, place⟩ ['"'] = some ⟨items, .inside []⟩ := by
    rcases h with rfl | rfl <;> rfl
  have hclose : run ⟨items, .inside s⟩ ['"'] = some ⟨items ++ [s], .behindItem⟩ := rfl
  have hquoted : doubleQuoted s = ['"'] ++ (s.flatMap escapeChar ++ ['"']) := rfl
  rw [hquoted, run_append, hopen, Option.bind_some, run_append, run_flatMap, Option.bind_some,
    List.nil_append, hclose]

/-- Strings with commas between them are items one after the other. -/
lemma run_intercalate {place : ListPlace} (h : place = .opened ∨ place = .beforeItem)
    (items : List (List Char)) (s : List Char) (rest : List (List Char)) :
    run ⟨items, place⟩ ([',', ' '].intercalate ((s :: rest).map doubleQuoted)) =
      some ⟨items ++ s :: rest, .behindItem⟩ := by
  induction rest generalizing items place s with
  | nil =>
    have hsingle : [',', ' '].intercalate ([s].map doubleQuoted) = doubleQuoted s := by
      simp [List.intercalate]
    rw [hsingle, run_doubleQuoted h]
  | cons t rest ih =>
    have hcons : [',', ' '].intercalate ((s :: t :: rest).map doubleQuoted) =
        doubleQuoted s ++
          ([',', ' '] ++ [',', ' '].intercalate ((t :: rest).map doubleQuoted)) := by
      simp [List.intercalate]
    have hcomma : run ⟨items ++ [s], .behindItem⟩ [',', ' '] =
        some ⟨items ++ [s], .beforeItem⟩ := rfl
    rw [hcons, run_append, run_doubleQuoted h, Option.bind_some, run_append, hcomma,
      Option.bind_some, ih (.inr rfl), List.append_assoc, List.singleton_append]

lemma run_flowList (items : List (List Char)) :
    run ⟨[], .start⟩ (flowList items) = some ⟨items, .closed⟩ := by
  have hopen : run ⟨[], .start⟩ ['['] = some ⟨[], .opened⟩ := rfl
  cases items with
  | nil => rfl
  | cons s rest =>
    have hlist : flowList (s :: rest) =
        ['['] ++ ([',', ' '].intercalate ((s :: rest).map doubleQuoted) ++ [']']) := rfl
    have hclose : run ⟨s :: rest, .behindItem⟩ [']'] = some ⟨s :: rest, .closed⟩ := rfl
    rw [hlist, run_append, hopen, Option.bind_some, run_append, run_intercalate (.inl rfl),
      Option.bind_some, List.nil_append, hclose]

end ListScan

/-- A list that was written is scanned to its end and gives back its items in order, and so no other
list is written in the same way. -/
theorem scanList_flowList (items : List (List Char)) :
    scanList (flowList items) = some items ∧
      ∀ others, flowList others = flowList items ↔ others = items := by
  have hscan : ∀ xs, scanList (flowList xs) = some xs := by
    intro xs
    rw [scanList, ListScan.run_flowList]
  refine ⟨hscan items, fun others => ⟨fun heq => ?_, fun heq => heq ▸ rfl⟩⟩
  apply Option.some.inj
  calc some others = scanList (flowList others) := (hscan others).symm
    _ = scanList (flowList items) := by rw [heq]
    _ = some items := hscan items

/-- A backslash in front of the closing quote and the separator itself are parts of items. -/
example : scanList "[\"a\\\\\", \"\\\", \\\"\"]".toList = some ["a\\".toList, "\", \"".toList] := by
  decide

end Pipework.Text
