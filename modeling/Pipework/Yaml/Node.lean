import Pipework.Yaml.Token

/-!
# Nodes

The tree that the tokens of a document form.  An anchor gets a number when its node begins, the
number of names in use before it, and an alias the number that its name has at that point.
-/

namespace Pipework.Yaml

/-- A node of a document, with the number of its anchor and its tag. -/
inductive Node where
  | scalar (anchor : Option Nat) (tag : Option (List Char)) (plain : Bool) (text : List Char)
  | list (anchor : Option Nat) (tag : Option (List Char)) (items : List Node)
  | object (anchor : Option Nat) (tag : Option (List Char)) (entries : List (Node × Node))
  | alias (anchor : Nat)
deriving Inhabited

namespace Node

/-- A node that is not there. -/
def missing : Node := .scalar none none true []

/-- What is left of the tokens, and the names of anchors with their numbers. -/
structure Reading where
  tokens : List Token
  anchors : List (List Char × Nat)

/-- A step of building nodes, which may find the tokens in no order that makes sense. -/
abbrev Build := StateT Reading Option

/-- The next token. -/
def next : Build (Option Token) := return (← get).tokens.head?

/-- Past the next token. -/
def advance : Build Unit := modify fun r => { r with tokens := r.tokens.tail }

/-- Past the next token if it is the given one. -/
def accept (t : Token) : Build Bool := do
  if (← next) == some t then
    advance
    return true
  return false

/-- Past the next token, which must be the given one. -/
def expect (t : Token) : Build Unit := do
  guard (← accept t)

/-- Whether the next token is one of some. -/
def nextIn (ts : List Token) : Build Bool :=
  return (← next).any ts.contains

/-- The number of a name's anchor from here on. -/
def declare (name : Option (List Char)) : Build (Option Nat) := do
  match name with
  | none => return none
  | some name =>
    let anchors := (← get).anchors
    let others := anchors.filter (·.1 ≠ name)
    modify fun r => { r with anchors := (name, anchors.length) :: others }
    return some anchors.length

/-- The tag that is written with a handle. -/
def resolveTag (handles : List (List Char × List Char)) (t : Tag) : Build (List Char) :=
  if t.handle.isEmpty then return t.suffix
  else
    match handles.lookup t.handle with
    | some stands => return stands ++ t.suffix
    | none => failure

/-- The anchor's name in front of a node. -/
def readAnchor : Build (Option (List Char)) := do
  match ← next with
  | some (.anchor name) =>
    advance
    return some name
  | _ => return none

/-- The tag in front of a node. -/
def readTag (handles : List (List Char × List Char)) : Build (Option (List Char)) := do
  match ← next with
  | some (.tag t) =>
    advance
    return some (← resolveTag handles t)
  | _ => return none

/-- The anchor's name and the tag in front of a node, in either order. -/
def readProperties (handles : List (List Char × List Char)) :
    Build (Option (List Char) × Option (List Char)) := do
  match ← readAnchor with
  | some name => return (some name, ← readTag handles)
  | none =>
    let tag ← readTag handles
    return (← if tag.isSome then readAnchor else pure none, tag)

/-- The tag of a scalar.  A lone exclamation mark is none. -/
def scalarTag (tag : Option (List Char)) : Option (List Char) :=
  tag.filter (· ≠ ['!'])

mutual

/-- A node.  Block collections are allowed in block context, and a list without an indentation of
its own only as the value of an entry. -/
def read (handles : List (List Char × List Char)) : Nat → Bool → Bool → Build Node
  | 0, _, _ => failure
  | fuel + 1, block, indentless => do
    if let some (.alias name) := ← next then
      advance
      match (← get).anchors.lookup name with
      | some n => return .alias n
      | none => failure
    let (name, tag) ← readProperties handles
    let bare : Build Node := do
      guard (name.isSome || tag.isSome)
      return .scalar (← declare name) tag true []
    match ← next with
    | some .item =>
      if indentless then return .list (← declare name) tag (← readIndentless handles fuel) else bare
    | some (.scalar plain text) =>
      advance
      return .scalar (← declare name) (scalarTag tag) plain text
    | some .flowList =>
      advance
      return .list (← declare name) tag (← readFlowItems handles fuel true)
    | some .flowObject =>
      advance
      return .object (← declare name) tag (← readFlowEntries handles fuel true)
    | some .blockList =>
      if block then
        advance
        return .list (← declare name) tag (← readItems handles fuel)
      else bare
    | some .blockObject =>
      if block then
        advance
        return .object (← declare name) tag (← readEntries handles fuel)
      else bare
    | _ => bare

/-- A node, or a missing one in front of some tokens. -/
def readBefore (handles : List (List Char × List Char)) :
    Nat → Bool → Bool → List Token → Build Node
  | 0, _, _, _ => failure
  | fuel + 1, block, indentless, ends => do
    if ← nextIn ends then return missing
    else read handles fuel block indentless

/-- The items of a block list. -/
def readItems (handles : List (List Char × List Char)) : Nat → Build (List Node)
  | 0 => failure
  | fuel + 1 => do
    if ← accept .blockEnd then return []
    expect .item
    let item ← readBefore handles fuel true false [.item, .blockEnd]
    return item :: (← readItems handles fuel)

/-- The items of a list that stands in the column of its key. -/
def readIndentless (handles : List (List Char × List Char)) : Nat → Build (List Node)
  | 0 => failure
  | fuel + 1 => do
    if ← accept .item then
      let item ← readBefore handles fuel true false [.item, .key, .value, .blockEnd]
      return item :: (← readIndentless handles fuel)
    else return []

/-- The entries of a block object. -/
def readEntries (handles : List (List Char × List Char)) : Nat → Build (List (Node × Node))
  | 0 => failure
  | fuel + 1 => do
    if ← accept .blockEnd then return []
    expect .key
    let key ← readBefore handles fuel true true [.key, .value, .blockEnd]
    let value ←
      if ← accept .value then readBefore handles fuel true true [.key, .value, .blockEnd]
      else pure missing
    return (key, value) :: (← readEntries handles fuel)

/-- The items of a list between brackets.  An entry among them is an object of its own; where its
key is missing, so is the token behind its question mark. -/
def readFlowItems (handles : List (List Char × List Char)) : Nat → Bool → Build (List Node)
  | 0, _ => failure
  | fuel + 1, first => do
    if ← accept .flowListEnd then return []
    if !first then
      expect .separator
      if ← accept .flowListEnd then return []
    if ← accept .key then
      let key ←
        if ← nextIn [.value, .separator, .flowListEnd] then
          advance
          pure missing
        else read handles fuel false false
      let value ←
        if ← accept .value then readBefore handles fuel false false [.separator, .flowListEnd]
        else pure missing
      return .object none none [(key, value)] :: (← readFlowItems handles fuel false)
    else
      let item ← read handles fuel false false
      return item :: (← readFlowItems handles fuel false)

/-- The entries of an object between braces. -/
def readFlowEntries (handles : List (List Char × List Char)) :
    Nat → Bool → Build (List (Node × Node))
  | 0, _ => failure
  | fuel + 1, first => do
    if ← accept .flowObjectEnd then return []
    if !first then
      expect .separator
      if ← accept .flowObjectEnd then return []
    let entry ←
      if ← accept .key then
        let key ← readBefore handles fuel false false [.value, .separator, .flowObjectEnd]
        let value ←
          if ← accept .value then readBefore handles fuel false false [.separator, .flowObjectEnd]
          else pure missing
        pure (key, value)
      else
        pure (← read handles fuel false false, missing)
    return entry :: (← readFlowEntries handles fuel false)

end

/-! ## Documents -/

/-- What the handles of tags stand for unless a document says otherwise. -/
def defaultHandles : List (List Char × List Char) :=
  [("!".toList, "!".toList), ("!!".toList, "tag:yaml.org,2002:".toList)]

/-- The handles that the directives in front of a document declare, and the tokens behind them. -/
def readDirectives (versioned : Bool) (handles : List (List Char × List Char)) :
    List Token → Option (List (List Char × List Char) × List Token)
  | .version major minor :: rest => do
    guard (!versioned && major = 1 && (minor = 1 || minor = 2))
    readDirectives true handles rest
  | .handle name stands :: rest => do
    guard (handles.lookup name).isNone
    readDirectives versioned (handles ++ [(name, stands)]) rest
  | rest => some (handles ++ defaultHandles, rest)

/-- Whether a token stands between documents. -/
def isOutside : Token → Bool
  | .version .. | .handle .. | .documentStart | .documentEnd => true
  | _ => false

/-- The node of the only document among tokens, or none if there is no document. -/
def ofTokens? (tokens : List Token) : Option (Option Node) := do
  let root (handles : List (List Char × List Char)) (tokens : List Token) :
      Option (Option Node) := do
    let (node, left) ← (read handles (2 * tokens.length + 2) true false).run ⟨tokens, []⟩
    guard (left.tokens.all (· == .documentEnd))
    pure (some node)
  match tokens with
  | [] => pure none
  | first :: _ =>
    if isOutside first && first != .documentEnd then
      match ← readDirectives false [] tokens with
      | (handles, .documentStart :: content) =>
        if content.head?.all isOutside then
          guard (content.all (· == .documentEnd))
          pure (some missing)
        else root handles content
      | _ => none
    else root defaultHandles tokens

end Node

end Pipework.Yaml
