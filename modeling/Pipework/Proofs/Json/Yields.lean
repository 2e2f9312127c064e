import Pipework.Proofs.Json.Reading

/-!
# What codecs can yield

A property of everything that a codec reads, whatever the text.  A value that was read is sorted
(`sorted_of_parse`), because a member is put in its place as it is met.  `Codec.Yields` passes from
the items of a list to the list, and from the fields of a record to the record: there the property
holds of the record to begin with, and putting a field into a record that has it leaves it
(`yields_record`).
-/

namespace Pipework.Json

/-! ## Items and members -/

/-- A property of every item is one of all items that were read. -/
lemma forall_of_readItems {α : Type} {item : Cursor → Except Error (α × Cursor)} {P : α → Prop}
    (hitem : ∀ c x c', item c = .ok (x, c') → P x) {fuel : Nat} {first : Bool} {c c' : Cursor}
    {xs : List α} (h : readItems item fuel first c = .ok (xs, c')) : ∀ x ∈ xs, P x := by
  induction fuel generalizing first c c' xs with
  | zero => cases h
  | succ fuel ih =>
    obtain ⟨next, -, h⟩ := bind_eq_ok.1 h
    cases next with
    | error after =>
      cases h
      simp
    | ok c =>
      obtain ⟨⟨x, after⟩, hx, h⟩ := bind_eq_ok.1 h
      obtain ⟨⟨rest, behind⟩, hrest, h⟩ := bind_eq_ok.1 h
      cases h
      exact List.forall_mem_cons.2 ⟨hitem _ _ _ hx, ih hrest⟩

/-- A property that every member leaves is left by all of them. -/
lemma invariant_of_readMembers {σ : Type}
    {member : σ → String → Cursor → Except Error (σ × Cursor)} {P : σ → Prop}
    (hmember : ∀ s key c s' c', member s key c = .ok (s', c') → P s → P s') {fuel : Nat}
    {first : Bool} {s s' : σ} {c c' : Cursor}
    (h : readMembers member fuel first s c = .ok (s', c')) (hs : P s) : P s' := by
  induction fuel generalizing first s c with
  | zero => cases h
  | succ fuel ih =>
    obtain ⟨next, -, h⟩ := bind_eq_ok.1 h
    cases next with
    | error after =>
      cases h
      exact hs
    | ok c =>
      obtain ⟨⟨key, after⟩, -, h⟩ := bind_eq_ok.1 h
      obtain ⟨⟨t, behind⟩, hmem, h⟩ := bind_eq_ok.1 h
      exact ih h (hmember _ _ _ _ _ hmem hs)

/-! ## Values -/

lemma sorted_of_readValue {fuel depth : Nat} {c c' : Cursor} {v : Json}
    (h : readValue fuel depth c = .ok (v, c')) : v.sorted = v := by
  induction fuel generalizing depth c c' v with
  | zero => cases h
  | succ fuel ih =>
    rw [readValue] at h
    simp only at h
    split at h
    case h_1 => cases h
    case h_6 =>
      obtain ⟨inner, -, h⟩ := bind_eq_ok.1 h
      obtain ⟨⟨items, after⟩, hitems, h⟩ := bind_eq_ok.1 h
      cases h
      exact sorted_list (forall_of_readItems (fun _ _ _ hitem => ih hitem) hitems)
    case h_7 =>
      obtain ⟨inner, -, h⟩ := bind_eq_ok.1 h
      obtain ⟨⟨fields, after⟩, hfields, h⟩ := bind_eq_ok.1 h
      cases h
      -- every member finds its place among those before
      refine invariant_of_readMembers (P := fun fields => (object fields).sorted = .object fields)
        (fun fields key c fields' c' hmember hsorted => ?_) hfields rfl
      obtain ⟨behind, -, hmember⟩ := bind_eq_ok.1 hmember
      obtain ⟨⟨w, behind⟩, hw, hmember⟩ := bind_eq_ok.1 hmember
      cases hmember
      exact sorted_insert hsorted key (ih hw)
    case h_8 =>
      split at h
      · obtain ⟨⟨n, after⟩, -, h⟩ := bind_eq_ok.1 h
        cases h
        rfl
      · cases h
    -- words and strings
    all_goals
      obtain ⟨after, -, h⟩ := bind_eq_ok.1 h
      cases h
      rfl

/-- The fields of every object in a value that was read stand in the order of their names. -/
theorem sorted_of_parse {text : String} {v : Json} (h : parse text = .ok v) : v.sorted = v := by
  obtain ⟨⟨w, after⟩, hread, h⟩ := bind_eq_ok.1 h
  obtain ⟨-, -, h⟩ := bind_eq_ok.1 h
  cases h
  exact sorted_of_readValue hread

namespace Codec

variable {α β σ : Type}

/-- Everything that a reader yields has a property. -/
def Yields (read : Nat → Cursor → Except Error (β × Cursor)) (P : β → Prop) : Prop :=
  ∀ ⦃levels : Nat⦄ ⦃cur cur' : Cursor⦄ ⦃x : β⦄, read levels cur = .ok (x, cur') → P x

/-- What a whole text says has the property too. -/
lemma Yields.ofText {c : Codec α} {P : α → Prop} (h : Yields c.read P) {text : String} {x : α}
    (hx : c.ofText text = .ok x) : P x := by
  rw [Codec.ofText, bind_eq_ok] at hx
  obtain ⟨⟨y, rest⟩, hread, hx⟩ := hx
  obtain ⟨-, -, hx⟩ := bind_eq_ok.1 hx
  obtain rfl := Except.ok.inj hx
  exact h hread

/-- Looking at a value of another type than the expected one yields nothing. -/
lemma mistakenText_ne_ok {c : Cursor} {expected : String} {x : β × Cursor} :
    mistakenText c expected ≠ .ok x := by
  have hwrong {γ : Type} {y : Except Error γ} {e : γ → Error} {z : β × Cursor} :
      (y >>= fun a => .error (e a)) ≠ (.ok z : Except Error (β × Cursor)) := by
    cases y <;> simp
  unfold mistakenText
  split
  all_goals try exact hwrong
  all_goals try simp
  split
  · exact hwrong
  · simp

/-! ## Scalars and lists -/

lemma yields_text {expected : String} {write : α → String} {parse : String → Except Cause α}
    {P : α → Prop} (h : ∀ s x, parse s = .ok x → P x) :
    Yields (text expected write parse).read P := by
  intro levels cur cur' x hx
  simp only [text] at hx
  split at hx
  · obtain ⟨⟨s, after⟩, -, hx⟩ := bind_eq_ok.1 hx
    simp only at hx
    split at hx
    case h_1 y hparse =>
      cases hx
      exact h s _ hparse
    case h_2 => cases hx
  · exact absurd hx mistakenText_ne_ok

lemma yields_natural (name : String) (bound : Nat) :
    Yields (natural name bound).read (· < bound) := by
  intro levels cur cur' x hx
  simp only [natural] at hx
  split at hx
  · split at hx
    · obtain ⟨⟨n, after⟩, -, hx⟩ := bind_eq_ok.1 hx
      simp only at hx
      split at hx
      case h_1 y hy =>
        cases hx
        unfold natural? at hy
        split at hy
        · split at hy
          case isTrue hlt =>
            cases hy
            exact hlt
          case isFalse => cases hy
        · cases hy
        · cases hy
      case h_2 => cases hx
    · exact absurd hx mistakenText_ne_ok
  · exact absurd hx mistakenText_ne_ok

lemma yields_list {c : Codec α} {P : α → Prop} (h : Yields c.read P) :
    Yields (list c).read fun xs => ∀ x ∈ xs, P x := by
  intro levels cur cur' xs hxs
  simp only [list] at hxs
  split at hxs
  · obtain ⟨depth, -, hxs⟩ := bind_eq_ok.1 hxs
    exact forall_of_readItems (fun _ _ _ hx => h hx) hxs
  · exact absurd hxs mistakenText_ne_ok

/-! ## Records -/

section

variable {P : σ → Prop} {fields : List (Field σ)}

/-- Putting the field into a record leaves a property. -/
def Field.Leaves (P : σ → Prop) (f : Field σ) : Prop :=
  Yields f.read fun set => ∀ s, P s → P (set s)

lemma Field.Leaves.needed {f : Field σ} (h : f.Leaves P) : f.needed.Leaves P := h

lemma leaves_field {c : Codec α} {Q : α → Prop} (h : Yields c.read Q) (name : String) {get : σ → α}
    {set : α → σ → σ} (hset : ∀ x s, Q x → P s → P (set x s)) :
    (field name c get set).Leaves P := by
  intro levels cur cur' f hf
  simp only [field] at hf
  cases hread : c.read levels cur with
  | error e =>
    rw [hread] at hf
    cases hf
  | ok read =>
    rw [hread] at hf
    cases hf
    exact fun s hs => hset _ s (h hread) hs

/-- A field that the property does not depend on. -/
lemma leaves_of_congr {c : Codec α} (name : String) {get : σ → α} {set : α → σ → σ}
    (hset : ∀ x s, P (set x s) ↔ P s) : (field name c get set).Leaves P :=
  leaves_field (Q := fun _ => True) (fun _ _ _ _ _ => trivial) name fun x s _ hs => (hset x s).2 hs

lemma invariant_of_readFields {sized : String} {levels count : Nat} {first : Bool} {s s' : σ}
    {c c' : Cursor} (hfields : ∀ f ∈ fields, f.Leaves P) (hs : P s)
    (h : readFields sized levels count fields first s c = .ok (s', c')) : P s' := by
  induction fields generalizing count first s c with
  | nil =>
    obtain ⟨after, -, h⟩ := bind_eq_ok.1 h
    cases h
    exact hs
  | cons f fields ih =>
    rw [List.forall_mem_cons] at hfields
    obtain ⟨next, -, h⟩ := bind_eq_ok.1 h
    cases next with
    | ok c =>
      obtain ⟨⟨set, after⟩, hset, h⟩ := bind_eq_ok.1 h
      exact ih hfields.2 (hfields.1 hset s hs) h
    | error after =>
      simp only at h
      split at h
      · cases h
      · cases h
        exact hs

/-- What every field leaves is so of every record that is read, if it is of the empty one. -/
theorem yields_record {name : RecordName} {start : σ} (hstart : P start)
    (hfields : ∀ f ∈ fields, f.Leaves P) : Yields (record name start fields).read P := by
  intro levels cur cur' s hs
  simp only [record] at hs
  split at hs
  · obtain ⟨depth, -, hs⟩ := bind_eq_ok.1 hs
    exact invariant_of_readFields hfields hstart hs
  · obtain ⟨depth, -, hs⟩ := bind_eq_ok.1 hs
    obtain ⟨⟨⟨t, seen⟩, after⟩, hread, hs⟩ := bind_eq_ok.1 hs
    have ht : P t := by
      refine invariant_of_readMembers (P := fun s : σ × List String => P s.1) ?_ hread hstart
      intro s key c s' c' hmember hs
      split at hmember
      · obtain ⟨after, -, hmember⟩ := bind_eq_ok.1 hmember
        obtain ⟨behind, -, hmember⟩ := bind_eq_ok.1 hmember
        cases hmember
        exact hs
      case h_2 f hf =>
        split at hmember
        · cases hmember
        · obtain ⟨after, -, hmember⟩ := bind_eq_ok.1 hmember
          obtain ⟨⟨set, behind⟩, hset, hmember⟩ := bind_eq_ok.1 hmember
          cases hmember
          exact hfields f (List.mem_of_find?_eq_some hf) hset s.1 hs
    simp only at hs
    split at hs
    · cases hs
      exact ht
    · cases hs
  · exact absurd hs mistakenText_ne_ok

end

end Codec

end Pipework.Json
