import Pipework.Json.Basic
import Pipework.Yaml.Node

/-!
# What a document says

A document as a JSON value.  Aliases stand for the nodes of their anchors, keys are the texts of
scalars, and of two entries with one key the later counts.  Tags of an application have no meaning
here.  Nesting and the following of aliases are limited.
-/

namespace Pipework.Yaml

namespace Node

mutual

/-- The nodes with anchors, the last one first. -/
def anchored (found : List (Nat × Node)) : Node → List (Nat × Node)
  | .scalar anchor tag plain text =>
    (anchor.toList.map fun n => (n, .scalar anchor tag plain text)) ++ found
  | .list anchor tag items =>
    anchoredItems ((anchor.toList.map fun n => (n, .list anchor tag items)) ++ found) items
  | .object anchor tag entries =>
    anchoredEntries ((anchor.toList.map fun n => (n, .object anchor tag entries)) ++ found) entries
  | .alias _ => found

/-- The nodes with anchors among items. -/
def anchoredItems (found : List (Nat × Node)) : List Node → List (Nat × Node)
  | [] => found
  | item :: rest => anchoredItems (item.anchored found) rest

/-- The nodes with anchors among entries. -/
def anchoredEntries (found : List (Nat × Node)) : List (Node × Node) → List (Nat × Node)
  | [] => found
  | (key, value) :: rest => anchoredEntries (value.anchored (key.anchored found)) rest

end

mutual

/-- The number of beginnings, ends, scalars and aliases in a node. -/
def size : Node → Nat
  | .scalar .. => 1
  | .alias _ => 1
  | .list _ _ items => 2 + sizeItems items
  | .object _ _ entries => 2 + sizeEntries entries

/-- The size of items. -/
def sizeItems : List Node → Nat
  | [] => 0
  | item :: rest => item.size + sizeItems rest

/-- The size of entries. -/
def sizeEntries : List (Node × Node) → Nat
  | [] => 0
  | (key, value) :: rest => key.size + value.size + sizeEntries rest

end

/-! ## Scalars -/

/-- Whether a tag belongs to an application. -/
def isForeign (tag : Option (List Char)) : Bool := tag.any fun t => t.head? == some '!'

/-- A tag that is common to all documents. -/
def commonTag (name : String) : List Char := "tag:yaml.org,2002:".toList ++ name.toList

/-- The value of what a scalar was found to be.  Infinities are null, and integers of more than 64
bits are no values. -/
def ofResolved? (s : List Char) : Resolved → Option Json
  | .null => some .null
  | .bool b => some (.bool b)
  | .natural n => some (.number (.natural n))
  | .negative n => some (.number (.negative n))
  | .wide => none
  | .decimal x => some (.number (.decimal x.toFloat))
  | .nonFinite => some .null
  | .text => some (.string (String.ofList s))

/-- What a scalar is found to be.  A tag can ask for a type, and any other common tag for a
string. -/
def meaning? (tag : Option (List Char)) (plain : Bool) (s : List Char) : Option Resolved :=
  match tag with
  | none => some (if plain then resolve s else .text)
  | some t =>
    if isForeign tag then none
    else if t == commonTag "bool" then (bool? s).map .bool
    else if t == commonTag "int" then integer? s
    else if t == commonTag "float" then decimal? s
    else if t == commonTag "null" then (if isNull s then some .null else none)
    else some .text

/-- The value of a scalar. -/
def ofScalar? (tag : Option (List Char)) (plain : Bool) (s : List Char) : Option Json :=
  (meaning? tag plain s).bind (ofResolved? s)

/-! ## Collections -/

/-- Building a value, with the number of aliases that may still be followed. -/
abbrev Follow := StateT Nat Option

/-- The node that a node stands for. -/
def follow (anchors : List (Nat × Node)) : Node → Follow Node
  | .alias n => do
    let left ← get
    guard (0 < left)
    set (left - 1)
    anchors.lookup n
  | node => pure node

/-- The text of a node that is a key. -/
def keyText (anchors : List (Nat × Node)) (node : Node) : Follow String := do
  match ← follow anchors node with
  | .scalar _ _ _ s => return String.ofList s
  | _ => failure

/-- The value of a node, with one more than the number of levels that it may have. -/
def toJson (anchors : List (Nat × Node)) : Nat → Node → Follow Json
  | 0, _ => failure
  | levels + 1, node => do
    match ← follow anchors node with
    | .scalar _ tag plain s => ofScalar? tag plain s
    | .list _ tag items =>
      guard (!isForeign tag && 0 < levels)
      return .list (← items.mapM (toJson anchors levels))
    | .object _ tag entries =>
      guard (!isForeign tag && 0 < levels)
      let add (fields : List (String × Json)) (entry : Node × Node) :
          Follow (List (String × Json)) := do
        let name ← keyText anchors entry.1
        return Named.insert name (← toJson anchors levels entry.2) fields
      return .object (← entries.foldlM add [])
    | .alias _ => failure

/-- The nesting that is still allowed. -/
def levelLimit : Nat := 128

/-- How often aliases may be followed for every part of a document. -/
def aliasLimit : Nat := 100

/-- The value of a document's node. -/
def value? (node : Node) : Option Json :=
  ((node.toJson (node.anchored []) (levelLimit + 1)).run (aliasLimit * node.size)).map (·.1)

end Node

/-- The value that a text says, if it is one document. -/
def read (text : String) : Option Json := do
  match ← Node.ofTokens? (← Token.ofText? text.toList) with
  | none => some .null
  | some node => node.value?

end Pipework.Yaml
