import Pipework.Proofs.Yaml.Node
import Pipework.Proofs.Yaml.Value

/-!
# Documents of one entry

A document that is a key and a scalar on one line, without a break behind it.  It is read as the
object with that one field (`read_entry`), and so a string in the form that `scalar` chooses for it
is read back as itself (`read_scalar`).
-/

namespace Pipework.Yaml

open Node

namespace Scan

variable {w s : List Char} {plain : Bool}

/-- What is left at the end is to close the collections. -/
lemma tokens_end (columns : List Nat) (keyAllowed : Bool) (fuel : Nat) :
    tokens (fuel + 1) ⟨[], columns, 0, keyAllowed⟩ = some (columns.map fun _ => .blockEnd) := rfl

/-- A key at the beginning of a document opens an object. -/
lemma run_first_key (h : Written w plain s) (hlength : w.length ≤ keyLimit) (text : List Char) :
    Run 1 ⟨Glyph.ofCharsAt 0 0 (w ++ ':' :: ' ' :: text), [], 0, true⟩
      [.blockObject, .key, .scalar plain s, .value]
      ⟨Glyph.ofCharsAt 0 (w.length + 1) (' ' :: text), [0], 0, false⟩ := by
  obtain ⟨c, t, rfl⟩ := List.exists_cons_of_ne_nil h.ne_nil
  have hbegins := h.begins (.key (.inl rfl) text) 0 1
  have htoken : toToken false true false (Glyph.ofCharsAt 0 0 (c :: t ++ ':' :: ' ' :: text)) =
      (true, ⟨c, 0, 0⟩ :: Glyph.ofCharsAt 0 1 (t ++ ':' :: ' ' :: text)) := by
    rw [List.cons_append, toToken_solid hbegins.solid, ofCharsAt_cons hbegins.solid.ordinary]
  have hcolumns : Admits [] 0 := by simp [Admits]
  refine run_step htoken (.inr hcolumns.leave) ?_
  rw [step_key rfl rfl hcolumns h hlength (.inl rfl)]
  simp [entered]

/-- A scalar at the end of a document is one alone. -/
lemma step_last {st : Scan} (hflows : st.flows = 0) {n k column : Nat}
    (hcolumns : st.columns.head? = some column) (hlt : column < k) {c : Char} {t : List Char}
    (h : Written (c :: t) plain s) :
    st.step ⟨c, n, k⟩ (Glyph.ofCharsAt n (k + 1) t) =
      some ([.scalar plain s], { st with rest := [], keyAllowed := false }) := by
  have hbegins := h.begins .document n (k + 1)
  rw [List.append_nil] at hbegins
  have hinFlow : st.inFlow = false := by simp [inFlow, hflows]
  have hinner : st.inner = column + 1 := by
    obtain ⟨rest, columns, flows, keyAllowed⟩ := st
    obtain ⟨columns, rfl⟩ := List.head?_eq_some_iff.1 hcolumns
    rfl
  have hread := h.readEntry_end (by omega : st.inner ≤ k + 1) n
  have hne : ¬column = k := by omega
  rw [ofCharsAt_cons hbegins.solid.ordinary, ← hinFlow] at hread
  rw [step_entry hbegins (fun hin => by simp [hinFlow] at hin) hread]
  simp [afterColon?, skipBlanks, needsKey, hcolumns, hne, hinFlow]

lemma run_last (h : Written w plain s) {n k column : Nat} (hlt : column < k)
    (columns : List Nat) (keyAllowed : Bool) :
    Run 1 ⟨Glyph.ofCharsAt n k w, column :: columns, 0, keyAllowed⟩ [.scalar plain s]
      ⟨[], column :: columns, 0, false⟩ := by
  obtain ⟨c, t, rfl⟩ := List.exists_cons_of_ne_nil h.ne_nil
  have hbegins := h.begins .document n (k + 1)
  rw [List.append_nil] at hbegins
  have htoken : toToken false keyAllowed false (Glyph.ofCharsAt n k (c :: t)) =
      (keyAllowed, ⟨c, n, k⟩ :: Glyph.ofCharsAt n (k + 1) t) := by
    rw [toToken_solid hbegins.solid, ofCharsAt_cons hbegins.solid.ordinary]
  have hleave : leave k (column :: columns) = ([], column :: columns) := by
    have hle : ¬k < column := by omega
    simp [leave, hle]
  refine run_step htoken (.inr hleave) ?_
  rw [step_last rfl rfl hlt h]

end Scan

variable {u name w s : List Char} {plainKey plain : Bool}

/-- The tokens of a key and a scalar. -/
lemma ofText?_entry (hkey : Written u plainKey name) (hlength : u.length ≤ Scan.keyLimit)
    (h : Written w plain s) :
    Token.ofText? (u ++ ':' :: ' ' :: w) =
      some [.blockObject, .key, .scalar plainKey name, .value, .scalar plain s, .blockEnd] := by
  have hflat : Flat (u ++ ':' :: ' ' :: w) :=
    flat_append.2 ⟨hkey.flat, flat_cons.2 ⟨by decide, flat_cons.2 ⟨ordinary_space, h.flat⟩⟩⟩
  have hglyphs : Glyph.ofChars? (u ++ ':' :: ' ' :: w) =
      some (Glyph.ofCharsAt 0 0 (u ++ ':' :: ' ' :: w)) := by
    refine ofChars?_eq fun c hc => .inr (hflat c hc)
  have hspace : Scan.Run 0 ⟨Glyph.ofCharsAt 0 (u.length + 1) (' ' :: w), [0], 0, false⟩ []
      ⟨Glyph.ofCharsAt 0 (u.length + 2) w, [0], 0, false⟩ :=
    Scan.run_of_toToken rfl rfl (toToken_space 0 (u.length + 1) w)
  have hscalar : Scan.Run 1 ⟨Glyph.ofCharsAt 0 (u.length + 2) w, [0], 0, false⟩ [.scalar plain s]
      ⟨[], [0], 0, false⟩ := Scan.run_last h (by omega) [] false
  have hrun := (Scan.run_first_key hkey hlength w).trans (hspace.trans hscalar)
  obtain ⟨fuel, hfuel⟩ : ∃ fuel, (Glyph.ofCharsAt 0 0 (u ++ ':' :: ' ' :: w)).length + 1 =
      fuel + 1 + (1 + 0 + 1) := by
    rw [length_ofCharsAt fun c hc => .inr (hflat c hc)]
    exact ⟨u.length + w.length, by simp; omega⟩
  have htokens := hrun (fuel + 1)
  rw [Scan.tokens_end, ← hfuel] at htokens
  rw [Token.ofText?, hglyphs]
  exact htokens

/-- A key and a scalar that is read as a string are the object with that field. -/
theorem read_entry (hkey : Written u plainKey name) (hlength : u.length ≤ Scan.keyLimit)
    (h : Written w plain s) (htext : plain = true → resolve s = .text) :
    read (String.ofList (u ++ ':' :: ' ' :: w)) =
      some (.object [(String.ofList name, .string (String.ofList s))]) := by
  have hvalue : SaysJson 1 (.scalar none none plain s) (.string (String.ofList s)) := .text htext
  have hobject : SaysJson 2 _ _ := hvalue.field plainKey name
  have hbehind : Behind defaultHandles [.scalar plain s] (.scalar none none plain s) :=
    .whole (.scalar plain s)
  have htokens := (Whole.object (hbehind.entry plainKey name)).ofTokens?_eq
  rw [read, String.toList_ofList, ofText?_entry hkey hlength h]
  simp only [List.cons_append, List.nil_append] at htokens
  simp [htokens, hobject.value?_eq (by decide : 2 ≤ levelLimit + 1)]

/-- A string behind a key is on that key's line, and is read back as the same string. -/
theorem read_scalar {s : List Char} (h : Quotable s) :
    (∀ c ∈ scalar s, isBreak c = false) ∧
      read (String.ofList ("key: ".toList ++ scalar s)) =
        some (.object [("key", .string (String.ofList s))]) := by
  obtain ⟨plain, hwritten, htext⟩ := written_scalar h
  refine ⟨fun c hc => (hwritten.flat c hc).not_isBreak, ?_⟩
  have hkey : Written "key".toList true "key".toList := .plain (by decide)
  have hread := read_entry hkey (by decide) hwritten htext
  rw [String.ofList_toList] at hread
  exact hread

/-- A colon, a comment sign and both kinds of line ends are all kept. -/
theorem read_scalar_lines :
    Quotable "- a: b # c\r\n".toList ∧ (∀ c ∈ scalar "- a: b # c\r\n".toList, isBreak c = false) ∧
      read (String.ofList ("key: ".toList ++ scalar "- a: b # c\r\n".toList)) =
        some (.object [("key", .string "- a: b # c\r\n")]) := by
  have h : Quotable "- a: b # c\r\n".toList := by decide
  have hread := read_scalar h
  rw [String.ofList_toList] at hread
  exact ⟨h, hread⟩

end Pipework.Yaml
