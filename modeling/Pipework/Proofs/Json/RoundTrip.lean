import Mathlib.Data.List.Forall2
import Pipework.Json.Codec
import Pipework.Proofs.Json.Scalars
import Pipework.Proofs.Json.Sorted

/-!
# Reading a value that was written

A value written over several lines and read again is the same value with the fields of its objects
in the order of their names (`parse_pretty`).  It holds of the values that a text keeps,
`Json.Lossless`: every number is an integer from zero that 64 bits hold, and no object has two
fields of one name.  They may be as deep as the reader goes, `depthLimit` levels.

Lists and objects are read by loops that take the reader of a member as a parameter.
`readItems_writePretty` and `readMembers_writePretty` are about the loops alone: given a reader that
gets each member's text right, the loop gets the members, one after the other (`Passes`).  They do
not depend on what a member becomes.
-/

namespace Pipework.Json

/-- The values that a text keeps: no number but natural ones of 64 bits, and no name twice in an
object. -/
inductive Lossless : Json → Prop where
  | null : Lossless .null
  | bool (b : Bool) : Lossless (.bool b)
  | natural {n : Nat} (h : n < UInt64.size) : Lossless (.number (.natural n))
  | string (s : String) : Lossless (.string s)
  | list {items : List Json} (h : ∀ v ∈ items, Lossless v) : Lossless (.list items)
  | object {fields : List (String × Json)} (hnodup : (fields.map (·.1)).Nodup)
      (h : ∀ field ∈ fields, Lossless field.2) : Lossless (.object fields)

mutual

/-- The number of levels of a value. -/
def height : Json → Nat
  | .list items => heightItems items + 1
  | .object fields => heightFields fields + 1
  | _ => 0

/-- The greatest height among items. -/
def heightItems : List Json → Nat
  | [] => 0
  | item :: rest => max item.height (heightItems rest)

/-- The greatest height among the values of fields. -/
def heightFields : List (String × Json) → Nat
  | [] => 0
  | (_, v) :: rest => max v.height (heightFields rest)

end

lemma heightItems_le {items : List Json} {n : Nat} :
    heightItems items ≤ n ↔ ∀ v ∈ items, v.height ≤ n := by
  induction items with
  | nil => simp [heightItems]
  | cons item rest ih => simp [heightItems, ih]

lemma heightFields_le {fields : List (String × Json)} {n : Nat} :
    heightFields fields ≤ n ↔ ∀ field ∈ fields, field.2.height ≤ n := by
  induction fields with
  | nil => simp [heightFields]
  | cons field rest ih =>
    obtain ⟨name, v⟩ := field
    simp [heightFields, ih]

/-! ## Lines and starts -/

lemma skip_of_not_blank {c : Char} (hc : Cursor.isBlank c = false) (p : Place)
    (rest : List Char) : Cursor.skip ⟨p, c :: rest⟩ = ⟨p, c :: rest⟩ := by
  simp [Cursor.skip, Cursor.skipFrom, hc]

lemma skip_spaces (n : Nat) (p : Place) (rest : List Char) :
    ∃ q, Cursor.skip ⟨p, List.replicate n ' ' ++ rest⟩ = Cursor.skip ⟨q, rest⟩ := by
  induction n generalizing p with
  | zero => exact ⟨p, rfl⟩
  | succ n ih =>
    obtain ⟨q, hq⟩ := ih (p.after ' ')
    refine ⟨q, ?_⟩
    rw [← hq]
    simp [Cursor.skip, Cursor.skipFrom, List.replicate_succ, Cursor.isBlank]

/-- The start of a line is skipped up to what stands on it. -/
lemma skip_newline {c : Char} (hc : Cursor.isBlank c = false) (level : Nat) (p : Place)
    (rest : List Char) :
    ∃ q, Cursor.skip ⟨p, newline level ++ c :: rest⟩ = ⟨q, c :: rest⟩ := by
  obtain ⟨q, hq⟩ := skip_spaces (2 * level) (p.after '\n') (c :: rest)
  refine ⟨q, ?_⟩
  rw [← skip_of_not_blank hc, ← hq]
  simp [Cursor.skip, Cursor.skipFrom, newline, Cursor.isBlank]

section

attribute [local simp] writePretty

/-- A value begins with a character that is neither blank nor the end of a list. -/
lemma Lossless.exists_writePretty_eq_cons {v : Json} (hv : v.Lossless) (level : Nat) :
    ∃ c cs, v.writePretty level = c :: cs ∧ Cursor.isBlank c = false ∧ c ≠ ']' := by
  cases hv with
  | null => exact ⟨'n', _, by simp; rfl, by decide, by decide⟩
  | bool b =>
    cases b with
    | false => exact ⟨'f', _, by simp; rfl, by decide, by decide⟩
    | true => exact ⟨'t', _, by simp; rfl, by decide, by decide⟩
  | natural h =>
    rename_i n
    obtain ⟨d, ds, heq⟩ := List.exists_cons_of_ne_nil (Nat.toDigits_ne_nil (n := n) (b := 10))
    have hdigit := Decimal.isDigit_iff.1 (Decimal.isDigit_toDigits (n := n) (c := d) (by simp [heq]))
    refine ⟨d, ds, by simp [Number.write, heq], ?_, ?_⟩
    · by_contra hc
      simp only [Cursor.isBlank, Bool.or_eq_true, beq_iff_eq, Bool.not_eq_false] at hc
      rcases hc with ((rfl | rfl) | rfl) | rfl <;> exact absurd hdigit (by decide)
    · rintro rfl
      exact absurd hdigit (by decide)
  | string s => exact ⟨'"', _, by simp [writeString]; rfl, by decide, by decide⟩
  | list h =>
    rename_i items
    cases items with
    | nil => exact ⟨'[', _, by simp; rfl, by decide, by decide⟩
    | cons item rest => exact ⟨'[', _, by simp; rfl, by decide, by decide⟩
  | object hnodup h =>
    rename_i fields
    cases fields with
    | nil => exact ⟨'\x7b', _, by simp; rfl, by decide, by decide⟩
    | cons field rest => exact ⟨'\x7b', _, by simp; rfl, by decide, by decide⟩

lemma writePretty_list (level : Nat) (item : Json) (items : List Json) (rest : List Char) :
    (Json.list (item :: items)).writePretty level ++ rest =
      '[' :: (writePrettyItems (level + 1) (item :: items) ++ (newline level ++ ']' :: rest)) := by
  simp

lemma writePretty_object (level : Nat) (field : String × Json) (fields : List (String × Json))
    (rest : List Char) :
    (Json.object (field :: fields)).writePretty level ++ rest =
      '\x7b' :: (writePrettyFields (level + 1) (field :: fields) ++
        (newline level ++ '\x7d' :: rest)) := by
  simp

end

/-! ## Lists -/

/-- What follows an item: the comma and the further items. -/
def afterItem (level : Nat) : List Json → List Char
  | [] => []
  | rest => ',' :: writePrettyItems level rest

lemma afterItem_cons (level : Nat) (item : Json) (rest : List Json) :
    afterItem level (item :: rest) = ',' :: writePrettyItems level (item :: rest) := rfl

lemma writePrettyItems_cons (level : Nat) (item : Json) (rest : List Json) :
    writePrettyItems level (item :: rest) =
      newline level ++ (item.writePretty level ++ afterItem level rest) := by
  cases rest <;> simp [writePrettyItems, afterItem]

/-- What stands behind an item or a field cannot go on a number. -/
lemma endsNumber_newline (level : Nat) (rest : List Char) :
    endsNumber (newline level ++ rest) = true := by
  simp [newline, endsNumber]

lemma endsNumber_afterItem (level close : Nat) (items : List Json) (rest : List Char) :
    endsNumber (afterItem level items ++ (newline close ++ rest)) = true := by
  cases items with
  | nil => exact endsNumber_newline close rest
  | cons item items => simp [afterItem, endsNumber]

/-- The first item stands on the next line. -/
lemma nextItem_first {c : Char} (hblank : Cursor.isBlank c = false) (hc : c ≠ ']')
    (level : Nat) (p : Place) (rest : List Char) :
    ∃ q, nextItem true ⟨p, newline level ++ c :: rest⟩ = .ok (.ok ⟨q, c :: rest⟩) := by
  obtain ⟨q, hskip⟩ := skip_newline hblank level p rest
  exact ⟨q, by simp [nextItem, hskip]⟩

/-- A further item stands on the line after the comma. -/
lemma nextItem_comma {c : Char} (hblank : Cursor.isBlank c = false) (hc : c ≠ ']')
    (level : Nat) (p : Place) (rest : List Char) :
    ∃ q, nextItem false ⟨p, ',' :: (newline level ++ c :: rest)⟩ = .ok (.ok ⟨q, c :: rest⟩) := by
  obtain ⟨q, hskip⟩ := skip_newline hblank level (p.after ',') rest
  exact ⟨q, by simp [nextItem, skip_of_not_blank (c := ',') (by decide), hskip, hc]⟩

/-- The closing bracket stands on the next line. -/
lemma nextItem_close (first : Bool) (level : Nat) (p : Place) (rest : List Char) :
    ∃ q, nextItem first ⟨p, newline level ++ ']' :: rest⟩ = .ok (.error ⟨q, rest⟩) := by
  obtain ⟨q, hskip⟩ := skip_newline (c := ']') (by decide) level p rest
  exact ⟨q.after ']', by simp [nextItem, hskip]⟩

variable {α : Type}

/-- A reader gets what a text says, wherever the text stands. -/
def Gets (read : Cursor → Except Error (α × Cursor)) (text : List Char) (x : α) : Prop :=
  ∀ p rest, endsNumber rest = true → ∃ q, read ⟨p, text ++ rest⟩ = .ok (x, ⟨q, rest⟩)

variable {item : Cursor → Except Error (α × Cursor)} {level close : Nat}

/-- The items behind an item, by induction on them: each step takes the comma, the start of the line
and one item. -/
lemma readItems_afterItem {items : List Json} {xs : List α} (hl : ∀ v ∈ items, v.Lossless)
    (h : List.Forall₂ (fun v x => Gets item (v.writePretty level) x) items xs) {fuel : Nat}
    (hfuel : items.length < fuel) (p : Place) (rest : List Char) :
    ∃ q, readItems item fuel false
        ⟨p, afterItem level items ++ (newline close ++ ']' :: rest)⟩ =
      .ok (xs, ⟨q, rest⟩) := by
  induction h generalizing fuel p with
  | nil =>
    obtain ⟨fuel, rfl⟩ := Nat.exists_eq_add_of_lt hfuel
    obtain ⟨q, hnext⟩ := nextItem_close false close p rest
    exact ⟨q, by simp [readItems, afterItem, hnext]⟩
  | @cons v x items xs hv _ ih =>
    obtain ⟨fuel, rfl⟩ := Nat.exists_eq_add_of_lt hfuel
    obtain ⟨c, cs, hcons, hblank, hc⟩ := (hl v (by simp)).exists_writePretty_eq_cons level
    have hends := endsNumber_afterItem level close items (']' :: rest)
    obtain ⟨start, hnext⟩ := nextItem_comma hblank hc level p
      (cs ++ (afterItem level items ++ (newline close ++ ']' :: rest)))
    obtain ⟨behind, hitem⟩ := hv start _ hends
    obtain ⟨q, hrest⟩ := ih (fun w hw => hl w (.tail v hw))
      (by omega : items.length < items.length + 1 + fuel) behind
    refine ⟨q, ?_⟩
    rw [hcons, List.cons_append] at hitem
    rw [afterItem_cons, writePrettyItems_cons, hcons, readItems]
    simp [hnext, hitem, hrest]

/-- The items of a list that has some, and the closing bracket. -/
lemma readItems_writePretty {v : Json} {items : List Json} {xs : List α}
    (hl : ∀ w ∈ v :: items, w.Lossless)
    (h : List.Forall₂ (fun v x => Gets item (v.writePretty level) x) (v :: items) xs) {fuel : Nat}
    (hfuel : (v :: items).length < fuel) (p : Place) (rest : List Char) :
    ∃ q, readItems item fuel true
        ⟨p, writePrettyItems level (v :: items) ++ (newline close ++ ']' :: rest)⟩ =
      .ok (xs, ⟨q, rest⟩) := by
  obtain ⟨x, xs, hv, hitems, rfl⟩ := List.forall₂_cons_left_iff.1 h
  obtain ⟨fuel, rfl⟩ := Nat.exists_eq_add_of_lt hfuel
  obtain ⟨c, cs, hcons, hblank, hc⟩ := (hl v (by simp)).exists_writePretty_eq_cons level
  have hends := endsNumber_afterItem level close items (']' :: rest)
  obtain ⟨start, hnext⟩ := nextItem_first hblank hc level p
    (cs ++ (afterItem level items ++ (newline close ++ ']' :: rest)))
  obtain ⟨behind, hitem⟩ := hv start _ hends
  obtain ⟨q, hrest⟩ : ∃ q, readItems item (items.length + 1 + fuel) false
        ⟨behind, afterItem level items ++ (newline close ++ ']' :: rest)⟩ =
      .ok (xs, ⟨q, rest⟩) :=
    readItems_afterItem (fun w hw => hl w (.tail v hw)) hitems (by omega) behind rest
  refine ⟨q, ?_⟩
  rw [hcons, List.cons_append] at hitem
  rw [writePrettyItems_cons, hcons, readItems]
  simp [hnext, hitem, hrest]

/-! ## Objects -/

/-- A field without the start of its line. -/
def writeField (level : Nat) (field : String × Json) : List Char :=
  writeString field.1 ++ ':' :: ' ' :: field.2.writePretty level

/-- What follows a field: the comma and the further fields. -/
def afterField (level : Nat) : List (String × Json) → List Char
  | [] => []
  | rest => ',' :: writePrettyFields level rest

lemma afterField_cons (level : Nat) (field : String × Json) (rest : List (String × Json)) :
    afterField level (field :: rest) = ',' :: writePrettyFields level (field :: rest) := rfl

lemma writePrettyFields_cons (level : Nat) (field : String × Json)
    (rest : List (String × Json)) :
    writePrettyFields level (field :: rest) =
      newline level ++ (writeField level field ++ afterField level rest) := by
  obtain ⟨name, v⟩ := field
  cases rest <;> simp [writePrettyFields, afterField, writeField]

lemma endsNumber_afterField (level close : Nat) (fields : List (String × Json))
    (rest : List Char) : endsNumber (afterField level fields ++ (newline close ++ rest)) = true := by
  cases fields with
  | nil => exact endsNumber_newline close rest
  | cons field fields => simp [afterField, endsNumber]

/-- The first key stands on the next line. -/
lemma nextKey_first (level : Nat) (p : Place) (rest : List Char) :
    ∃ q, nextKey true ⟨p, newline level ++ '"' :: rest⟩ = .ok (.ok ⟨q, rest⟩) := by
  obtain ⟨q, hskip⟩ := skip_newline (c := '"') (by decide) level p rest
  exact ⟨q.after '"', by simp [nextKey, hskip]⟩

/-- A further key stands on the line after the comma. -/
lemma nextKey_comma (level : Nat) (p : Place) (rest : List Char) :
    ∃ q, nextKey false ⟨p, ',' :: (newline level ++ '"' :: rest)⟩ = .ok (.ok ⟨q, rest⟩) := by
  obtain ⟨q, hskip⟩ := skip_newline (c := '"') (by decide) level (p.after ',') rest
  exact ⟨q.after '"', by simp [nextKey, skip_of_not_blank (c := ',') (by decide), hskip]⟩

/-- The closing brace stands on the next line. -/
lemma nextKey_close (first : Bool) (level : Nat) (p : Place) (rest : List Char) :
    ∃ q, nextKey first ⟨p, newline level ++ '\x7d' :: rest⟩ = .ok (.error ⟨q, rest⟩) := by
  obtain ⟨q, hskip⟩ := skip_newline (c := '\x7d') (by decide) level p rest
  exact ⟨q.after '\x7d', by simp [nextKey, hskip]⟩

variable {σ : Type} {member : σ → String → Cursor → Except Error (σ × Cursor)}

/-- A reader of members goes from one state to another over some fields, one after the other. -/
inductive Passes (member : σ → String → Cursor → Except Error (σ × Cursor)) (level : Nat) :
    σ → List (String × Json) → σ → Prop where
  | nil (s : σ) : Passes member level s [] s
  | cons {s s₁ s' : σ} {field : String × Json} {fields : List (String × Json)}
    (h : Gets (member s field.1) (':' :: ' ' :: field.2.writePretty level) s₁)
    (hrest : Passes member level s₁ fields s') : Passes member level s (field :: fields) s'

/-- A reader that gets every field right in every state makes one step for each. -/
lemma passes_foldl {step : σ → String × Json → σ} {fields : List (String × Json)}
    (h : ∀ field ∈ fields, ∀ s,
      Gets (member s field.1) (':' :: ' ' :: field.2.writePretty level) (step s field)) (s : σ) :
    Passes member level s fields (fields.foldl step s) := by
  induction fields generalizing s with
  | nil => exact .nil s
  | cons field fields ih =>
    exact .cons (h field List.mem_cons_self s) (ih (fun g hg => h g (.tail _ hg)) (step s field))

/-- The fields behind a field, by induction on the steps that they take. -/
lemma readMembers_afterField {fields : List (String × Json)} {s s' : σ}
    (h : Passes member level s fields s') {fuel : Nat} (hfuel : fields.length < fuel) (p : Place)
    (rest : List Char) :
    ∃ q, readMembers member fuel false s
        ⟨p, afterField level fields ++ (newline close ++ '\x7d' :: rest)⟩ =
      .ok (s', ⟨q, rest⟩) := by
  induction h generalizing fuel p with
  | nil =>
    obtain ⟨fuel, rfl⟩ := Nat.exists_eq_add_of_lt hfuel
    obtain ⟨q, hnext⟩ := nextKey_close false close p rest
    exact ⟨q, by simp [readMembers, afterField, hnext]⟩
  | @cons s s₁ s' field fields hfield _ ih =>
    obtain ⟨fuel, rfl⟩ := Nat.exists_eq_add_of_lt hfuel
    have hends := endsNumber_afterField level close fields ('\x7d' :: rest)
    obtain ⟨start, hnext⟩ := nextKey_comma level p (field.1.toList.flatMap escapeChar ++ '"' ::
      ':' :: ' ' :: (field.2.writePretty level ++
        (afterField level fields ++ (newline close ++ '\x7d' :: rest))))
    obtain ⟨colon, hkey⟩ := readString_append field.1 start (':' :: ' ' ::
      (field.2.writePretty level ++ (afterField level fields ++ (newline close ++ '\x7d' :: rest))))
    obtain ⟨behind, hmember⟩ := hfield colon _ hends
    obtain ⟨q, hrest⟩ := ih (by omega : fields.length < fields.length + 1 + fuel) behind
    refine ⟨q, ?_⟩
    simp only [List.cons_append] at hmember
    rw [afterField_cons, writePrettyFields_cons, readMembers]
    simp [writeField, writeString, hnext, hkey, hmember, hrest]

/-- The fields of an object that has some, and the closing brace. -/
lemma readMembers_writePretty {field : String × Json} {fields : List (String × Json)} {s s' : σ}
    (h : Passes member level s (field :: fields) s') {fuel : Nat}
    (hfuel : (field :: fields).length < fuel) (p : Place) (rest : List Char) :
    ∃ q, readMembers member fuel true s
        ⟨p, writePrettyFields level (field :: fields) ++ (newline close ++ '\x7d' :: rest)⟩ =
      .ok (s', ⟨q, rest⟩) := by
  cases h with
  | @cons _ s₁ _ _ _ hfield hfields =>
    obtain ⟨fuel, rfl⟩ := Nat.exists_eq_add_of_lt hfuel
    have hends := endsNumber_afterField level close fields ('\x7d' :: rest)
    obtain ⟨start, hnext⟩ := nextKey_first level p (field.1.toList.flatMap escapeChar ++ '"' ::
      ':' :: ' ' :: (field.2.writePretty level ++
        (afterField level fields ++ (newline close ++ '\x7d' :: rest))))
    obtain ⟨colon, hkey⟩ := readString_append field.1 start (':' :: ' ' ::
      (field.2.writePretty level ++ (afterField level fields ++ (newline close ++ '\x7d' :: rest))))
    obtain ⟨behind, hmember⟩ := hfield colon _ hends
    obtain ⟨q, hrest⟩ : ∃ q, readMembers member (fields.length + 1 + fuel) false s₁
          ⟨behind, afterField level fields ++ (newline close ++ '\x7d' :: rest)⟩ =
        .ok (s', ⟨q, rest⟩) := readMembers_afterField hfields (by omega) behind rest
    refine ⟨q, ?_⟩
    simp only [List.cons_append] at hmember
    rw [writePrettyFields_cons, readMembers]
    simp [writeField, writeString, hnext, hkey, hmember, hrest]

/-! ## Values -/

lemma length_le_writePrettyItems (level : Nat) (items : List Json) :
    items.length ≤ (writePrettyItems level items).length := by
  induction items with
  | nil => simp
  | cons item rest ih =>
    rw [writePrettyItems_cons]
    cases rest with
    | nil => simp [newline]
    | cons next rest =>
      simp only [afterItem_cons, newline, List.length_cons, List.length_append] at ih ⊢
      omega

lemma length_le_writePrettyFields (level : Nat) (fields : List (String × Json)) :
    fields.length ≤ (writePrettyFields level fields).length := by
  induction fields with
  | nil => simp
  | cons field rest ih =>
    rw [writePrettyFields_cons]
    cases rest with
    | nil => simp [newline]
    | cons next rest =>
      simp only [afterField_cons, newline, List.length_cons, List.length_append] at ih ⊢
      omega

/-- The text of a list is its bracket and what the loop reads its items from. -/
lemma exists_readItems {item : Cursor → Except Error (α × Cursor)} {items : List Json}
    {xs : List α} {level : Nat} (hl : ∀ v ∈ items, v.Lossless)
    (h : List.Forall₂ (fun v x => Gets item (v.writePretty (level + 1)) x) items xs) (p : Place)
    (rest : List Char) :
    ∃ body q, (Json.list items).writePretty level ++ rest = '[' :: body ∧
      readItems item (body.length + 1) true ⟨p, body⟩ = .ok (xs, ⟨q, rest⟩) := by
  cases h with
  | nil =>
    refine ⟨']' :: rest, p.after ']', rfl, ?_⟩
    simp [readItems, nextItem, skip_of_not_blank (c := ']') (by decide)]
  | @cons v x items xs hv hitems =>
    have hlength := length_le_writePrettyItems (level + 1) (v :: items)
    have hfuel : (v :: items).length < (writePrettyItems (level + 1) (v :: items) ++
        (newline level ++ ']' :: rest)).length + 1 := by
      rw [List.length_append]
      omega
    obtain ⟨q, hq⟩ := readItems_writePretty hl (.cons hv hitems) hfuel p rest
    exact ⟨_, q, writePretty_list level v items rest, hq⟩

/-- The text of an object is its brace and what the loop reads its members from. -/
lemma exists_readMembers {σ : Type} {member : σ → String → Cursor → Except Error (σ × Cursor)}
    {fields : List (String × Json)} {s s' : σ} {level : Nat}
    (h : Passes member (level + 1) s fields s') (p : Place) (rest : List Char) :
    ∃ body q, (Json.object fields).writePretty level ++ rest = '\x7b' :: body ∧
      readMembers member (body.length + 1) true s ⟨p, body⟩ = .ok (s', ⟨q, rest⟩) := by
  cases fields with
  | nil =>
    cases h
    refine ⟨'\x7d' :: rest, p.after '\x7d', rfl, ?_⟩
    simp [readMembers, nextKey, skip_of_not_blank (c := '\x7d') (by decide)]
  | cons field fields =>
    have hlength := length_le_writePrettyFields (level + 1) (field :: fields)
    have hfuel : (field :: fields).length < (writePrettyFields (level + 1) (field :: fields) ++
        (newline level ++ '\x7d' :: rest)).length + 1 := by
      rw [List.length_append]
      omega
    obtain ⟨q, hq⟩ := readMembers_writePretty h hfuel p rest
    exact ⟨_, q, writePretty_object level field fields rest, hq⟩

section

attribute [local simp] readValue

/-- A blank in front of a value is skipped. -/
lemma readValue_space (fuel depth : Nat) (p : Place) (rest : List Char) :
    readValue (fuel + 1) depth ⟨p, ' ' :: rest⟩ =
      readValue (fuel + 1) depth ⟨p.after ' ', rest⟩ := by
  have hskip : Cursor.skip ⟨p, ' ' :: rest⟩ = Cursor.skip ⟨p.after ' ', rest⟩ := by
    simp [Cursor.skip, Cursor.skipFrom, Cursor.isBlank]
  simp [hskip]

/-- Past the colon stands the value of the field. -/
lemma readColon_colon (p : Place) (rest : List Char) :
    readColon ⟨p, ':' :: rest⟩ = .ok ⟨p.after ':', rest⟩ := by
  simp [readColon, skip_of_not_blank (c := ':') (by decide)]

/-- How a field's value is read into the fields before it. -/
def readMember (fuel depth : Nat) (values : List (String × Json)) (key : String) (c : Cursor) :
    Except Error (List (String × Json) × Cursor) := do
  let (v, c) ← readValue fuel depth (← readColon c)
  pure (Named.insert key v values, c)

/-- What begins with a brace is an object. -/
lemma readValue_brace {fuel depth : Nat} (hdepth : 1 < depth) (p : Place) (rest : List Char) :
    readValue (fuel + 1) depth ⟨p, '\x7b' :: rest⟩ =
      (readMembers (readMember fuel (depth - 1)) (rest.length + 1) true []
        ⟨p.after '\x7b', rest⟩).map fun (fields, c) => (.object fields, c) := by
  simp [skip_of_not_blank (c := '\x7b') (by decide), deeper, Nat.not_le.2 hdepth]
  rfl

/-- What begins with a bracket is a list. -/
lemma readValue_bracket {fuel depth : Nat} (hdepth : 1 < depth) (p : Place) (rest : List Char) :
    readValue (fuel + 1) depth ⟨p, '[' :: rest⟩ =
      (readItems (readValue fuel (depth - 1)) (rest.length + 1) true ⟨p.after '[', rest⟩).map
        fun (items, c) => (.list items, c) := by
  simp [skip_of_not_blank (c := '[') (by decide), deeper, Nat.not_le.2 hdepth]
  rfl

/-- What begins with a digit is a number. -/
lemma readValue_of_isDigit {c : Char} (hc : c.isDigit = true) (fuel depth : Nat) (p : Place)
    (rest : List Char) :
    readValue (fuel + 1) depth ⟨p, c :: rest⟩ =
      (readNumber ⟨p, c :: rest⟩).map fun (n, c) => (.number n, c) := by
  have hne : ∀ d : Char, d.isDigit = false → c ≠ d := by
    rintro d hd rfl
    exact absurd hc (by simp [hd])
  have hblank : Cursor.isBlank c = false := by
    simp [Cursor.isBlank, hne ' ' rfl, hne '\n' rfl, hne '\t' rfl, hne '\r' rfl]
  have hn := hne 'n' rfl
  have ht := hne 't' rfl
  have hf := hne 'f' rfl
  have hquote := hne '"' rfl
  have hbracket := hne '[' rfl
  have hbrace := hne '\x7b' rfl
  simp [skip_of_not_blank hblank, hc]
  cases readNumber ⟨p, c :: rest⟩ <;> rfl

end

section Kinds

variable {fuel depth level : Nat}

/-- A value that is a word is told by the first letter. -/
lemma gets_word {c : Char} {word : List Char} {v : Json}
    (h : ∀ p rest, readValue (fuel + 1) depth ⟨p, c :: rest⟩ =
      (readWord word ⟨p.after c, rest⟩).map fun c => (v, c)) :
    Gets (readValue (fuel + 1) depth) (c :: word) v := by
  intro p rest _
  obtain ⟨q, hq⟩ := readWord_append word (p.after c) rest
  refine ⟨q, ?_⟩
  rw [List.cons_append, h, hq, map_ok]

lemma gets_null : Gets (readValue (fuel + 1) depth) (writePretty level .null) .null :=
  gets_word fun _ _ => rfl

lemma gets_bool (b : Bool) :
    Gets (readValue (fuel + 1) depth) (writePretty level (.bool b)) (.bool b) := by
  cases b with
  | false => exact gets_word fun _ _ => rfl
  | true => exact gets_word fun _ _ => rfl

lemma gets_natural {n : Nat} (h : n < UInt64.size) :
    Gets (readValue (fuel + 1) depth) (writePretty level (.number (.natural n)))
      (.number (.natural n)) := by
  intro p rest hends
  obtain ⟨q, hq⟩ := readNumber_toDigits h p hends
  obtain ⟨d, ds, heq⟩ := List.exists_cons_of_ne_nil (Nat.toDigits_ne_nil (n := n) (b := 10))
  have hdigit := Decimal.isDigit_toDigits (n := n) (c := d) (by simp [heq])
  refine ⟨q, ?_⟩
  rw [heq, List.cons_append] at hq
  simp [writePretty, Number.write, heq, readValue_of_isDigit hdigit, hq]

lemma gets_string (s : String) :
    Gets (readValue (fuel + 1) depth) (writePretty level (.string s)) (.string s) := by
  intro p rest _
  obtain ⟨q, hq⟩ := readString_append s (p.after '"') rest
  refine ⟨q, ?_⟩
  simp [readValue, writePretty, writeString, skip_of_not_blank (c := '"') (by decide), hq]

/-- A list is read if its items are, one level deeper. -/
lemma gets_list {items : List Json} (hdepth : 1 < depth) (hitems : ∀ v ∈ items, v.Lossless)
    (h : ∀ v ∈ items, Gets (readValue fuel (depth - 1)) (v.writePretty (level + 1)) v.sorted) :
    Gets (readValue (fuel + 1) depth) (writePretty level (.list items))
      (Json.list items).sorted := by
  intro p rest _
  obtain ⟨body, q, hbody, hq⟩ := exists_readItems hitems
    (List.forall₂_map_right_iff.2 (List.forall₂_same.2 h)) (p.after '[') rest
  refine ⟨q, ?_⟩
  rw [hbody, readValue_bracket hdepth, hq, map_ok, sorted, sortedItems_eq_map]

/-- The value of a field is read behind the colon, and put in its place. -/
lemma gets_readMember {name : String} {x : Json} {text : List Char}
    {values : List (String × Json)} (h : Gets (readValue (fuel + 1) depth) text x) :
    Gets (readMember (fuel + 1) depth values name) (':' :: ' ' :: text)
      (Named.insert name x values) := by
  intro p rest hends
  obtain ⟨q, hq⟩ := h ((p.after ':').after ' ') rest hends
  rw [← readValue_space] at hq
  refine ⟨q, ?_⟩
  simp only [readMember, List.cons_append, readColon_colon, ok_bind, hq, pure_eq_ok]

/-- An object is read if the values of its fields are, one level deeper. -/
lemma gets_object {fields : List (String × Json)} (hdepth : 1 < depth)
    (hnodup : (fields.map (·.1)).Nodup)
    (h : ∀ field ∈ fields, Gets (readValue (fuel + 1) (depth - 1))
      (field.2.writePretty (level + 1)) field.2.sorted) :
    Gets (readValue (fuel + 1 + 1) depth) (writePretty level (.object fields))
      (Json.object fields).sorted := by
  intro p rest _
  have hmember : ∀ field ∈ fields, ∀ values,
      Gets (readMember (fuel + 1) (depth - 1) values field.1)
        (':' :: ' ' :: field.2.writePretty (level + 1))
        (Named.insert field.1 field.2.sorted values) :=
    fun field hfield _ => gets_readMember (h field hfield)
  obtain ⟨body, q, hbody, hq⟩ := exists_readMembers (passes_foldl hmember []) (p.after '\x7b') rest
  refine ⟨q, ?_⟩
  rw [hbody, readValue_brace hdepth, hq, map_ok, sorted, sortedFields_eq_collect hnodup,
    Named.collect, sortValues, List.foldl_map]

end Kinds

/-- A written value is read as that value sorted, by induction on the value: the loops of its lists
and objects get every member right. -/
theorem Lossless.gets_readValue {v : Json} (hv : v.Lossless) :
    ∀ {fuel depth : Nat} (level : Nat), v.height < fuel → v.height < depth →
      Gets (readValue fuel depth) (v.writePretty level) v.sorted := by
  induction hv with
  | null =>
    intro fuel depth level hfuel _
    obtain ⟨fuel, rfl⟩ := Nat.exists_eq_add_of_lt hfuel
    exact gets_null
  | bool b =>
    intro fuel depth level hfuel _
    obtain ⟨fuel, rfl⟩ := Nat.exists_eq_add_of_lt hfuel
    exact gets_bool b
  | natural h =>
    intro fuel depth level hfuel _
    obtain ⟨fuel, rfl⟩ := Nat.exists_eq_add_of_lt hfuel
    exact gets_natural h
  | string s =>
    intro fuel depth level hfuel _
    obtain ⟨fuel, rfl⟩ := Nat.exists_eq_add_of_lt hfuel
    exact gets_string s
  | @list items h ih =>
    intro fuel depth level hfuel hdepth
    obtain ⟨fuel, rfl⟩ := Nat.exists_eq_add_of_lt hfuel
    simp only [height] at hdepth ⊢
    refine gets_list (by omega) h fun v hv => ?_
    have hle := heightItems_le.1 (Nat.le_refl (heightItems items)) v hv
    exact ih v hv (level + 1) (by omega) (by omega)
  | @object fields hnodup h ih =>
    intro fuel depth level hfuel hdepth
    obtain ⟨fuel, rfl⟩ := Nat.exists_eq_add_of_lt hfuel
    simp only [height] at hdepth ⊢
    rw [Nat.add_right_comm (heightFields fields) 1 fuel]
    refine gets_object (by omega) hnodup fun field hfield => ?_
    have hle := heightFields_le.1 (Nat.le_refl (heightFields fields)) field hfield
    exact ih field hfield (level + 1) (by omega) (by omega)

/-! ## Texts -/

mutual

/-- A text has a character for every level of its value. -/
theorem height_le_length (level : Nat) : ∀ v : Json, v.height ≤ (v.writePretty level).length
  | .null => by simp [height]
  | .bool _ => by simp [height]
  | .number _ => by simp [height]
  | .string _ => by simp [height]
  | .list [] => by simp [height, heightItems, writePretty]
  | .list (item :: items) => by
    have h := heightItems_le_length (level + 1) (item :: items)
    simp only [height, writePretty, List.length_cons, List.length_append]
    omega
  | .object [] => by simp [height, heightFields, writePretty]
  | .object (field :: fields) => by
    have h := heightFields_le_length (level + 1) (field :: fields)
    simp only [height, writePretty, List.length_cons, List.length_append]
    omega

/-- The items of a list have a character for every level below it. -/
theorem heightItems_le_length (level : Nat) :
    ∀ items : List Json, heightItems items ≤ (writePrettyItems level items).length
  | [] => by simp [heightItems]
  | item :: rest => by
    have hitem := height_le_length level item
    have hrest := heightItems_le_length level rest
    have hafter : (writePrettyItems level rest).length ≤ (afterItem level rest).length := by
      cases rest <;> simp [afterItem, writePrettyItems]
    simp only [heightItems, writePrettyItems_cons, List.length_append]
    omega

/-- The fields of an object have a character for every level below it. -/
theorem heightFields_le_length (level : Nat) :
    ∀ fields : List (String × Json), heightFields fields ≤ (writePrettyFields level fields).length
  | [] => by simp [heightFields]
  | (name, v) :: rest => by
    have hvalue := height_le_length level v
    have hrest := heightFields_le_length level rest
    have hafter : (writePrettyFields level rest).length ≤ (afterField level rest).length := by
      cases rest <;> simp [afterField, writePrettyFields]
    simp only [heightFields, writePrettyFields_cons, writeField, List.length_append,
      List.length_cons]
    omega

end

/-- **Reading what was written.**  The text of a value says that value, its fields sorted. -/
theorem parse_pretty {v : Json} (hv : v.Lossless) (hdepth : v.height < depthLimit) :
    parse v.pretty = .ok v.sorted := by
  have hlength := height_le_length 0 v
  obtain ⟨q, hq⟩ := hv.gets_readValue 0 (by omega : v.height < (v.writePretty 0).length + 1) hdepth
    Place.start [] rfl
  rw [List.append_nil] at hq
  simp [parse, pretty, Cursor.start, Cursor.fuel, hq, readEnd, Cursor.skip, Cursor.skipFrom]

end Pipework.Json
