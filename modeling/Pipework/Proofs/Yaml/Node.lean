import Pipework.Proofs.Yaml.Group
import Pipework.Yaml.Node

/-!
# Nodes of tokens

How the tokens of scalars and collections without anchors and tags are read as nodes.  `Whole` holds
the tokens of one node, which is read the same whatever follows it.  `Members` are the tokens
between the beginning and the end of a block collection: reading them puts what they are in front of
what is read behind them, so they can be put together (`Members.append`).

Reading takes fuel for every token at most twice, and that is what a whole document is given
(`Whole.ofTokens?_eq`).
-/

namespace Pipework.Yaml.Node

/-- Whether a token begins a scalar or a collection that is indented or in brackets. -/
def begins : Token → Bool
  | .scalar .. | .flowList | .blockList | .blockObject => true
  | _ => false

/-- The tokens that can stand behind a member of a block collection. -/
def memberEnds : List Token := [.item, .key, .value, .blockEnd]

/-- What follows an entry of a block object: another one, or its end. -/
def EndsEntry (rest : List Token) : Prop := ∃ t more, rest = t :: more ∧ (t = .key ∨ t = .blockEnd)

variable {α : Type} (handles : List (List Char × List Char))

/-- Tokens that are read as a node wherever one can stand. -/
structure Whole (ts : List Token) (node : Node) : Prop where
  head : ∃ t more, ts = t :: more ∧ begins t = true
  read {fuel : Nat} (hfuel : 2 * ts.length ≤ fuel) (indentless : Bool) (rest : List Token) :
    (read handles fuel true indentless).run ⟨ts ++ rest, []⟩ = some (node, ⟨rest, []⟩)

/-- Tokens behind the colon of a key. -/
inductive Behind : List Token → Node → Prop where
  | missing : Behind [] missing
  | whole {ts : List Token} {node : Node} (h : Whole handles ts node) : Behind ts node

/-- Tokens that a reader of a block collection takes for some members, as long as what follows is
allowed behind them. -/
structure Members (reader : Nat → Build (List α)) (Allowed : List Token → Prop) (ts : List Token)
    (members : List α) : Prop where
  length_le : members.length ≤ ts.length
  allowed {rest : List Token} (hrest : Allowed rest) : Allowed (ts ++ rest)
  read {fuel : Nat} (hfuel : 2 * ts.length ≤ fuel + members.length) {rest : List Token}
    (hrest : Allowed rest) :
    (reader (fuel + members.length)).run ⟨ts ++ rest, []⟩ =
      ((reader fuel).run ⟨rest, []⟩).map fun (more, left) => (members ++ more, left)

/-- Tokens that are read as entries of a block object. -/
abbrev Entries : List Token → List (Node × Node) → Prop := Members (readEntries handles) EndsEntry

/-- Tokens that are read as items of a block list. -/
abbrev Items : List Token → List Node → Prop := Members (readItems handles) fun _ => True

variable {handles} {ts ts' : List Token} {node : Node}

/-! ## One node -/

lemma Whole.readBefore (h : Whole handles ts node) {fuel : Nat} (hfuel : 2 * ts.length < fuel)
    {ends : List Token} (hends : ends ⊆ memberEnds) (indentless : Bool) (rest : List Token) :
    (readBefore handles fuel true indentless ends).run ⟨ts ++ rest, []⟩ =
      some (node, ⟨rest, []⟩) := by
  obtain ⟨fuel, rfl⟩ := Nat.exists_eq_add_of_le' (Nat.one_le_of_lt hfuel)
  have hread := h.read (Nat.le_of_lt_succ hfuel) indentless rest
  obtain ⟨t, more, rfl, ht⟩ := h.head
  have hnotin : t ∉ ends := fun hmem => by
    have hmember := hends hmem
    simp only [memberEnds, List.mem_cons, List.not_mem_nil, or_false] at hmember
    rcases hmember with rfl | rfl | rfl | rfl <;> cases ht
  rw [List.cons_append] at hread ⊢
  simpa [Node.readBefore, nextIn, next, hnotin] using hread

lemma Behind.readBefore (h : Behind handles ts node) {fuel : Nat} (hfuel : 2 * ts.length < fuel)
    {rest : List Token} (hrest : EndsEntry rest) :
    (readBefore handles fuel true true [.key, .value, .blockEnd]).run ⟨ts ++ rest, []⟩ =
      some (node, ⟨rest, []⟩) := by
  cases h with
  | missing =>
    obtain ⟨fuel, rfl⟩ := Nat.exists_eq_add_of_le' (Nat.one_le_of_lt hfuel)
    obtain ⟨t, more, rfl, ht⟩ := hrest
    have hmem : t ∈ [Token.key, .value, .blockEnd] := by rcases ht with rfl | rfl <;> simp
    simp only [List.mem_cons, List.not_mem_nil, or_false] at hmem
    simp [Node.readBefore, nextIn, next, hmem]
  | whole h =>
    have hends : [Token.key, .value, .blockEnd] ⊆ memberEnds := by simp [memberEnds]
    exact h.readBefore hfuel hends true rest

lemma Whole.scalar (plain : Bool) (s : List Char) :
    Whole handles [.scalar plain s] (.scalar none none plain s) where
  head := ⟨_, [], rfl, rfl⟩
  read {fuel} hfuel indentless rest := by
    obtain ⟨fuel, rfl⟩ := Nat.exists_eq_add_of_le' (Nat.one_le_of_lt hfuel)
    simp [Node.read, next, advance, readProperties, readAnchor, readTag, declare, scalarTag]

/-! ## Members of block collections -/

namespace Members

variable {reader : Nat → Build (List α)} {Allowed : List Token → Prop} {members members' : List α}

lemma nil : Members reader Allowed [] [] where
  length_le := le_rfl
  allowed hrest := hrest
  read _ rest _ := by simp

lemma append (h : Members reader Allowed ts members) (h' : Members reader Allowed ts' members') :
    Members reader Allowed (ts ++ ts') (members ++ members') where
  length_le := by
    rw [List.length_append, List.length_append]
    exact Nat.add_le_add h.length_le h'.length_le
  allowed hrest := by
    rw [List.append_assoc]
    exact h.allowed (h'.allowed hrest)
  read {fuel} hfuel rest hrest := by
    have hlength := h.length_le
    rw [List.length_append, List.length_append] at hfuel
    have hfirst := h.read (by omega : 2 * ts.length ≤ fuel + members'.length + members.length)
      (h'.allowed hrest)
    have hsecond := h'.read (by omega : 2 * ts'.length ≤ fuel + members'.length) hrest
    rw [List.length_append, List.append_assoc, Nat.add_comm members.length, ← Nat.add_assoc, hfirst,
      hsecond, Option.map_map]
    congr 1
    funext ⟨more, left⟩
    simp

lemma ne_nil (h : Members reader Allowed ts members) (hne : members ≠ []) : ts ≠ [] := by
  have hlength := h.length_le
  have hpos := List.length_pos_iff.2 hne
  exact List.ne_nil_of_length_pos (by omega)

end Members

/-- One entry, whose key is a scalar. -/
lemma Behind.entry (h : Behind handles ts node) (plain : Bool) (s : List Char) :
    Entries handles (.key :: .scalar plain s :: .value :: ts)
      [(.scalar none none plain s, node)] where
  length_le := by simp
  allowed _ := ⟨.key, _, rfl, .inl rfl⟩
  read {fuel} hfuel rest hrest := by
    simp only [List.length_cons, List.length_nil] at hfuel
    have hkey : (Node.readBefore handles fuel true true [.key, .value, .blockEnd]).run
        ⟨.scalar plain s :: (.value :: (ts ++ rest)), []⟩ =
        some (.scalar none none plain s, ⟨.value :: (ts ++ rest), []⟩) :=
      (Whole.scalar plain s).readBefore (by simp; omega) (by simp [memberEnds]) true _
    have hvalue : (Node.readBefore handles fuel true true [.key, .value, .blockEnd]).run
        ⟨ts ++ rest, []⟩ = some (node, ⟨rest, []⟩) := h.readBefore (by omega) hrest
    simp only [List.length_cons, List.length_nil, Nat.zero_add, List.cons_append, readEntries]
    simp [accept, next, advance, expect, hkey, hvalue]

/-- One item. -/
lemma Whole.item (h : Whole handles ts node) : Items handles (.item :: ts) [node] where
  length_le := by simp
  allowed _ := trivial
  read {fuel} hfuel rest _ := by
    simp only [List.length_cons, List.length_nil] at hfuel
    have hitem : (Node.readBefore handles fuel true false [.item, .blockEnd]).run
        ⟨ts ++ rest, []⟩ = some (node, ⟨rest, []⟩) :=
      h.readBefore (by omega) (by simp [memberEnds]) false rest
    simp only [List.length_cons, List.length_nil, Nat.zero_add, List.cons_append, readItems]
    simp [accept, next, advance, expect, hitem]

/-! ## Collections -/

/-- All members are read up to the end of their collection. -/
lemma Members.read_all {reader : Nat → Build (List α)} {Allowed : List Token → Prop}
    {members : List α} (h : Members reader Allowed ts members)
    (hend : ∀ fuel rest, Allowed (.blockEnd :: rest) ∧
      (reader (fuel + 1)).run ⟨.blockEnd :: rest, []⟩ = some ([], ⟨rest, []⟩))
    {fuel : Nat} (hfuel : 2 * ts.length < fuel) (rest : List Token) :
    (reader fuel).run ⟨ts ++ .blockEnd :: rest, []⟩ = some (members, ⟨rest, []⟩) := by
  have hlength := h.length_le
  obtain ⟨fuel, rfl⟩ : ∃ left, fuel = left + 1 + members.length :=
    ⟨fuel - members.length - 1, by omega⟩
  obtain ⟨hallowed, hend⟩ := hend fuel rest
  rw [h.read (by omega) hallowed, hend]
  simp

lemma Whole.object {entries : List (Node × Node)} (h : Entries handles ts entries) :
    Whole handles (.blockObject :: (ts ++ [.blockEnd])) (.object none none entries) where
  head := ⟨_, _, rfl, rfl⟩
  read {fuel} hfuel indentless rest := by
    simp only [List.length_cons, List.length_append, List.length_nil] at hfuel
    obtain ⟨fuel, rfl⟩ : ∃ left, fuel = left + 1 := ⟨fuel - 1, by omega⟩
    have hentries : (readEntries handles fuel).run ⟨ts ++ .blockEnd :: rest, []⟩ =
        some (entries, ⟨rest, []⟩) :=
      h.read_all (fun fuel rest => ⟨⟨_, rest, rfl, .inr rfl⟩, rfl⟩) (by omega) rest
    simp [Node.read, next, advance, readProperties, readAnchor, readTag, declare, hentries]

lemma Whole.list {items : List Node} (h : Items handles ts items) :
    Whole handles (.blockList :: (ts ++ [.blockEnd])) (.list none none items) where
  head := ⟨_, _, rfl, rfl⟩
  read {fuel} hfuel indentless rest := by
    simp only [List.length_cons, List.length_append, List.length_nil] at hfuel
    obtain ⟨fuel, rfl⟩ : ∃ left, fuel = left + 1 := ⟨fuel - 1, by omega⟩
    have hitems : (readItems handles fuel).run ⟨ts ++ .blockEnd :: rest, []⟩ =
        some (items, ⟨rest, []⟩) :=
      h.read_all (fun fuel rest => ⟨trivial, rfl⟩) (by omega) rest
    simp [Node.read, next, advance, readProperties, readAnchor, readTag, declare, hitems]

/-- Strings in brackets, from the first of them on or behind a separator. -/
lemma readFlowItems_flowTokens (items : List (List Char)) {fuel : Nat}
    (hfuel : items.length + 1 < fuel) (rest : List Token) :
    (readFlowItems handles fuel true).run ⟨Scan.flowTokens items ++ .flowListEnd :: rest, []⟩ =
      some (items.map (.scalar none none false), ⟨rest, []⟩) := by
  induction items generalizing fuel with
  | nil =>
    obtain ⟨fuel, rfl⟩ : ∃ left, fuel = left + 1 := ⟨fuel - 1, by omega⟩
    rfl
  | cons s items ih =>
    rw [List.length_cons] at hfuel
    obtain ⟨fuel, rfl⟩ : ∃ left, fuel = left + 2 := ⟨fuel - 2, by omega⟩
    have hread (more : List Token) : (Node.read handles (fuel + 1) false false).run
        ⟨.scalar false s :: more, []⟩ = some (.scalar none none false s, ⟨more, []⟩) := by
      simp [Node.read, next, advance, readProperties, readAnchor, readTag, declare, scalarTag]
    -- behind its separator an item is read as the first one is
    have hbehind : (readFlowItems handles (fuel + 1) false).run
        ⟨(if items = [] then [] else .separator :: Scan.flowTokens items) ++ .flowListEnd :: rest,
          []⟩ = some (items.map (.scalar none none false), ⟨rest, []⟩) := by
      have hrest := ih (by omega : items.length + 1 < fuel + 1)
      cases items with
      | nil => rfl
      | cons t items =>
        rw [← hrest, if_neg (List.cons_ne_nil _ _)]
        cases items <;>
          simp [Scan.flowTokens, readFlowItems, accept, next, advance, expect]
    have htokens : Scan.flowTokens (s :: items) ++ .flowListEnd :: rest = .scalar false s ::
        ((if items = [] then [] else .separator :: Scan.flowTokens items) ++
          .flowListEnd :: rest) := by
      cases items <;> simp [Scan.flowTokens]
    rw [htokens, readFlowItems]
    simp [accept, next, hread, hbehind]

lemma length_flowTokens (items : List (List Char)) :
    items.length ≤ (Scan.flowTokens items).length := by
  induction items with
  | nil => exact le_rfl
  | cons s items ih =>
    cases items with
    | nil => exact le_rfl
    | cons t items =>
      simp only [Scan.flowTokens, List.length_cons] at ih ⊢
      omega

lemma Whole.flowList (items : List (List Char)) :
    Whole handles (.flowList :: (Scan.flowTokens items ++ [.flowListEnd]))
      (.list none none (items.map (.scalar none none false))) where
  head := ⟨_, _, rfl, rfl⟩
  read {fuel} hfuel indentless rest := by
    have hlength := length_flowTokens items
    simp only [List.length_cons, List.length_append, List.length_nil] at hfuel
    obtain ⟨fuel, rfl⟩ : ∃ left, fuel = left + 1 := ⟨fuel - 1, by omega⟩
    have hitems : (readFlowItems handles fuel true).run
        ⟨Scan.flowTokens items ++ .flowListEnd :: rest, []⟩ =
        some (items.map (.scalar none none false), ⟨rest, []⟩) :=
      readFlowItems_flowTokens items (by omega) rest
    simp [Node.read, next, advance, readProperties, readAnchor, readTag, declare, hitems]

/-! ## Documents -/

/-- The tokens of a node are a document. -/
theorem Whole.ofTokens?_eq (h : Whole defaultHandles ts node) : ofTokens? ts = some (some node) := by
  have hread := h.read (by omega : 2 * ts.length ≤ 2 * ts.length + 2) false []
  obtain ⟨t, more, rfl, ht⟩ := h.head
  have hinside : isOutside t = false := by cases t <;> first | rfl | cases ht
  rw [List.append_nil, List.length_cons] at hread
  simp [ofTokens?, hinside, hread]

end Pipework.Yaml.Node
