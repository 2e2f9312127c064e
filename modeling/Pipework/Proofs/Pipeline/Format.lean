import Mathlib.Data.List.TakeWhile
import Pipework.Pipeline.Record
import Pipework.Proofs.Json.Yields

/-!
# The format of a record

Which of its two formats a record is read in is settled by one character of the text, before it is
read.  For JSON that is enough: a text that is an object as JSON begins with a brace, whatever white
space stands in front (`looksLikeJson_of_parse`).  It is not for documents, where an object may
begin with a brace as well and is then read as JSON only.  So what is read from a text is what it
says as JSON, or what it says as a document if it does not look like JSON (`ofText_eq_ok_iff`); a
document that does look like it is refused although it could be read (`ofText_eq_ok_iff_brace`).
-/

namespace Pipework

namespace Json

/-! ## Texts of objects -/

lemma rest_skipFrom (p : Place) (text : List Char) :
    (Cursor.skipFrom p text).rest = text.dropWhile Cursor.isBlank := by
  induction text generalizing p with
  | nil => rfl
  | cons c rest ih =>
    cases hc : Cursor.isBlank c with
    | true => simp [Cursor.skipFrom, hc, ih]
    | false => simp [Cursor.skipFrom, hc]

/-- Only what begins with a brace is read as an object. -/
lemma exists_brace_of_readValue {fuel depth : Nat} {c c' : Cursor} {fields : List (String × Json)}
    (h : readValue fuel depth c = .ok (.object fields, c')) :
    ∃ rest, c.skip.rest = '\x7b' :: rest := by
  cases fuel with
  | zero => cases h
  | succ fuel =>
    rw [readValue] at h
    simp only at h
    split at h
    case h_1 => cases h
    case h_7 rest hrest => exact ⟨rest, hrest⟩
    case h_6 =>
      obtain ⟨_, -, h⟩ := bind_eq_ok.1 h
      obtain ⟨_, -, h⟩ := bind_eq_ok.1 h
      cases h
    case h_8 =>
      split at h
      · obtain ⟨_, -, h⟩ := bind_eq_ok.1 h
        cases h
      · cases h
    -- words and strings
    all_goals
      obtain ⟨_, -, h⟩ := bind_eq_ok.1 h
      cases h

lemma exists_brace_of_parse {text : String} {fields : List (String × Json)}
    (h : parse text = .ok (.object fields)) :
    ∃ rest, text.toList.dropWhile Cursor.isBlank = '\x7b' :: rest := by
  obtain ⟨⟨v, after⟩, hread, h⟩ := bind_eq_ok.1 h
  obtain ⟨_, -, h⟩ := bind_eq_ok.1 h
  cases h
  obtain ⟨rest, hrest⟩ := exists_brace_of_readValue hread
  exact ⟨rest, (rest_skipFrom _ _).symm.trans hrest⟩

/-- Every blank of JSON is white space. -/
lemma isSpace_of_isBlank {c : Char} (h : Cursor.isBlank c = true) : Text.isSpace c = true := by
  simp only [Cursor.isBlank, Bool.or_eq_true, beq_iff_eq] at h
  rcases h with ((rfl | rfl) | rfl) | rfl <;> decide

end Json

namespace Record

/-- What is an object as JSON looks like JSON. -/
lemma looksLikeJson_of_parse {text : String} {fields : List (String × Json)}
    (h : Json.parse text = .ok (.object fields)) : looksLikeJson text = true := by
  obtain ⟨rest, hrest⟩ := Json.exists_brace_of_parse h
  have htext : text.toList = text.toList.takeWhile Json.Cursor.isBlank ++ '\x7b' :: rest := by
    rw [← hrest, List.takeWhile_append_dropWhile]
  rw [looksLikeJson, Text.trimStart, htext,
    List.dropWhile_append_of_pos fun c hc => Json.isSpace_of_isBlank (List.mem_takeWhile_imp hc)]
  rfl

/-- Only objects make records. -/
lemma exists_object_of_ofJson {v : Json} {r : Record} (h : ofJson v = .ok r) :
    ∃ fields, v = .object fields := by
  cases v with
  | object fields => exact ⟨fields, rfl⟩
  | _ => cases h

/-- Every record that a text says as JSON is in a text that looks like JSON. -/
lemma looksLikeJson_of_ofJsonText {text : String} {r : Record} (h : ofJsonText text = .ok r) :
    looksLikeJson text = true := by
  rw [ofJsonText] at h
  cases hparse : Json.parse text with
  | error e =>
    rw [hparse] at h
    cases h
  | ok v =>
    rw [hparse] at h
    obtain ⟨fields, rfl⟩ := exists_object_of_ofJson h
    exact looksLikeJson_of_parse hparse

/-- What a text is read as.  Nothing that it says as JSON is lost, also where it says something else
as a document.  What it says as a document counts exactly where it does not look like JSON.  So a
text is refused if it is no record as JSON and, besides, either is none as a document or looks like
JSON. -/
theorem ofText_eq_ok_iff (text : String) :
    (∀ r, ofText text = .ok r ↔
      ofJsonText text = .ok r ∨ ofYamlText text = .ok r ∧ looksLikeJson text = false) ∧
    ((∃ e, ofText text = .error e) ↔ (∃ e, ofJsonText text = .error e) ∧
      ((∃ e, ofYamlText text = .error e) ∨ looksLikeJson text = true)) := by
  cases hlooks : looksLikeJson text with
  | true => simp [ofText, hlooks]
  | false =>
    have hrefused : ∃ e, ofJsonText text = .error e := by
      cases hjson : ofJsonText text with
      | error e => exact ⟨e, rfl⟩
      | ok r =>
        rw [looksLikeJson_of_ofJsonText hjson] at hlooks
        cases hlooks
    obtain ⟨e, hjson⟩ := hrefused
    simp [ofText, hlooks, hjson]

/-- An object in braces whose name is not between quotes is a record as a document.  It looks like
JSON, which it is not, so that it is refused. -/
theorem ofText_eq_ok_iff_brace :
    ofYamlText "\x7bplatform: gitlab\x7d" = .ok { pipeline := { platform := .gitlab } } ∧
      looksLikeJson "\x7bplatform: gitlab\x7d" = true ∧
      ofJsonText "\x7bplatform: gitlab\x7d" = .error (.json ⟨.keyNotString, some ⟨1, 2⟩⟩) ∧
      ∃ e, ofText "\x7bplatform: gitlab\x7d" = .error e := by
  have hyaml : (ofYamlText "\x7bplatform: gitlab\x7d").toOption =
      some { pipeline := { platform := .gitlab } } := by decide +kernel
  have hlooks : looksLikeJson "\x7bplatform: gitlab\x7d" = true := by decide +kernel
  have hjson : ofJsonText "\x7bplatform: gitlab\x7d" =
      .error (.json ⟨.keyNotString, some ⟨1, 2⟩⟩) := rfl
  refine ⟨?_, hlooks, hjson, (ofText_eq_ok_iff _).2.2 ⟨⟨_, hjson⟩, .inr hlooks⟩⟩
  cases hread : ofYamlText "\x7bplatform: gitlab\x7d" with
  | error e =>
    rw [hread] at hyaml
    cases hyaml
  | ok r =>
    rw [hread] at hyaml
    exact congrArg Except.ok (Option.some.inj hyaml)

end Record

end Pipework
