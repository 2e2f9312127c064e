import Pipework.Yaml.Value

/-!
# Documents with types throughout

A document as a value in which keys have types as all values do, so that an unquoted `NULL` is no
string even where it stands as a key.  Objects keep the order of their entries and no key may stand
in one twice, infinities are numbers, and the tags of an application are kept.
-/

namespace Pipework.Yaml

/-- The numbers that are not finite. -/
inductive NonFinite where
  | infinity
  | negativeInfinity
  | nan
deriving Repr, DecidableEq

/-- The number that a spelling of one of them is. -/
def NonFinite.ofText (s : List Char) : NonFinite :=
  if s.any fun c => c == 'a' || c == 'A' then .nan
  else if s.head? == some '-' then .negativeInfinity
  else .infinity

/-- A value of a document. -/
inductive Typed where
  | null
  | bool (value : Bool)
  | number (value : Json.Number)
  | nonFinite (value : NonFinite)
  | string (value : String)
  | list (items : List Typed)
  | object (entries : List (Typed × Typed))
  /-- A value with a tag of an application. -/
  | tagged (tag : String) (value : Typed)
deriving Inhabited

namespace Typed

/-- Whether two numbers are one.  An integer is never a decimal. -/
def sameNumber : Json.Number → Json.Number → Bool
  | .natural m, .natural n => m == n
  | .negative m, .negative n => m == n
  | .decimal x, .decimal y => x == y
  | _, _ => false

mutual

/-- Whether two values are one.  The order of an object's entries does not count. -/
def same : Typed → Typed → Bool
  | null, null => true
  | bool a, bool b => a == b
  | number m, number n => sameNumber m n
  | nonFinite x, nonFinite y => x == y
  | string s, string t => s == t
  | list items, list others => sameItems items others
  | object entries, object others =>
    entries.length == others.length && sameEntries entries others
  | tagged tag v, tagged other w => tag == other && same v w
  | _, _ => false

/-- Whether items are one by one the same. -/
def sameItems : List Typed → List Typed → Bool
  | [], [] => true
  | v :: rest, w :: others => same v w && sameItems rest others
  | _, _ => false

/-- Whether each of some entries stands among others. -/
def sameEntries : List (Typed × Typed) → List (Typed × Typed) → Bool
  | [], _ => true
  | (key, v) :: rest, others =>
    (others.any fun entry => same key entry.1 && same v entry.2) && sameEntries rest others

end

/-- The value of what a scalar was found to be.  Integers of more than 64 bits are no values. -/
def ofResolved? (s : List Char) : Resolved → Option Typed
  | .null => some null
  | .bool b => some (bool b)
  | .natural n => some (number (.natural n))
  | .negative n => some (number (.negative n))
  | .wide => none
  | .decimal x => some (number (.decimal x.toFloat))
  | .nonFinite => some (nonFinite (.ofText s))
  | .text => some (string (String.ofList s))

/-- A value with the tag in front of it, if that is one of an application. -/
def withTag (tag : Option (List Char)) (v : Typed) : Typed :=
  match tag with
  | some ('!' :: name) => tagged (String.ofList name) v
  | _ => v

/-- The value of a scalar. -/
def ofScalar? (tag : Option (List Char)) (plain : Bool) (s : List Char) : Option Typed :=
  let common := if Node.isForeign tag then none else tag
  ((Node.meaning? common plain s).bind (ofResolved? s)).map (withTag tag)

end Typed

namespace Node

/-- Put an entry behind those before it, unless one of them has its key. -/
def addEntry (read : Node → Follow Typed) (before : List (Typed × Typed)) (entry : Node × Node) :
    Follow (List (Typed × Typed)) := do
  let key ← read entry.1
  guard (!before.any (·.1.same key))
  return before ++ [(key, ← read entry.2)]

/-- The value of a node, with one more than the number of levels that it may have. -/
def toTyped (anchors : List (Nat × Node)) : Nat → Node → Follow Typed
  | 0, _ => failure
  | levels + 1, node => do
    match ← follow anchors node with
    | .scalar _ tag plain s => Typed.ofScalar? tag plain s
    | .list _ tag items =>
      guard (0 < levels)
      return .withTag tag (.list (← items.mapM (toTyped anchors levels)))
    | .object _ tag entries =>
      guard (0 < levels)
      return .withTag tag (.object (← entries.foldlM (addEntry (toTyped anchors levels)) []))
    | .alias _ => failure

/-- The value of a document's node. -/
def typed? (node : Node) : Option Typed :=
  ((node.toTyped (node.anchored []) (levelLimit + 1)).run (aliasLimit * node.size)).map (·.1)

end Node

/-- The value that a text says, if it is one document. -/
def readTyped (text : String) : Option Typed := do
  match ← Node.ofTokens? (← Token.ofText? text.toList) with
  | none => some .null
  | some node => node.typed?

end Pipework.Yaml
