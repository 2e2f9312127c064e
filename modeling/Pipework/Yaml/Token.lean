import Pipework.Yaml.Folded

/-!
# Tokens

A document as a list of tokens: indicators, the beginnings and ends of collections, and scalars with
their anchors and tags.  Block collections are found by their columns.  Whether a scalar is the key
of an entry is settled where it stands, by the colon behind it on the same line.
-/

namespace Pipework.Yaml

/-- A tag as it is written: its handle, empty for a whole tag, and the rest. -/
structure Tag where
  handle : List Char
  suffix : List Char
deriving Repr, DecidableEq

/-- The tokens of a document. -/
inductive Token where
  /-- The version that a document is written in. -/
  | version (major minor : Nat)
  /-- What a handle of tags stands for. -/
  | handle (name stands : List Char)
  | documentStart
  | documentEnd
  | blockList
  | blockObject
  | blockEnd
  | flowList
  | flowListEnd
  | flowObject
  | flowObjectEnd
  | item
  | separator
  | key
  | value
  | alias (name : List Char)
  | anchor (name : List Char)
  | tag (t : Tag)
  | scalar (plain : Bool) (text : List Char)
deriving Repr, DecidableEq

/-! ## Anchors, tags and directives -/

/-- The characters of names. -/
def isNameChar (c : Char) : Bool := c.isAlphanum || c == '_' || c == '-'

/-- The name of an anchor or an alias, and the rest. -/
def readName (gs : List Glyph) : Option (List Char × List Glyph) :=
  let (name, rest) := gs.span fun g => isNameChar g.char
  if !name.isEmpty &&
      (atGap rest || rest.head?.any fun g => "?:,]\x7d%@\x60".toList.contains g.char) then
    some (chars name, rest)
  else none

/-- The characters of tags beside those of names. -/
def isTagChar (c : Char) : Bool := isNameChar c || ";/?:@&=+$.!~*'()%".toList.contains c

/-- The number of bytes of a character by the first of them. -/
def sequenceLength? (n : Nat) : Option Nat :=
  if n < 0x80 then some 1
  else if 0xC0 ≤ n && n < 0xE0 then some 2
  else if 0xE0 ≤ n && n < 0xF0 then some 3
  else if 0xF0 ≤ n && n < 0xF8 then some 4
  else none

/-- Tag text with its escapes resolved, given how many more bytes of a character must follow.
Characters beyond ASCII are not told apart. -/
def unescapeTag? : Nat → List Char → Option (List Char)
  | 0, [] => some []
  | _ + 1, [] => none
  | more, '%' :: a :: b :: rest => do
    let n ← Decimal.digits? 16 [a, b]
    match more with
    | 0 =>
      let length ← sequenceLength? n
      let s ← unescapeTag? (length - 1) rest
      pure ((if length = 1 then Char.ofNat n else '\ufffd') :: s)
    | more + 1 => if 0x80 ≤ n && n < 0xC0 then unescapeTag? more rest else none
  | 0, c :: rest => if c == '%' then none else (unescapeTag? 0 rest).map (c :: ·)
  | _ + 1, _ :: _ => none

/-- The text of a tag, perhaps one between angle brackets, and the rest. -/
def readTagText (whole : Bool) (gs : List Glyph) : Option (List Char × List Glyph) := do
  let (text, rest) :=
    gs.span fun g => isTagChar g.char || (whole && ",[]".toList.contains g.char)
  pure (← unescapeTag? 0 (chars text), rest)

/-- The handle of a tag at its exclamation mark, and the rest. -/
def readHandle : List Glyph → Option (List Char × List Glyph)
  | [] => none
  | g :: rest =>
    if g.char == '!' then
      let (name, rest) := rest.span fun g => isNameChar g.char
      match rest with
      | h :: more =>
        if h.char == '!' then some ('!' :: chars name ++ ['!'], more)
        else some ('!' :: chars name, rest)
      | [] => some ('!' :: chars name, [])
    else none

/-- Whether a handle is enclosed by two exclamation marks. -/
def isNamedHandle (handle : List Char) : Bool := 2 ≤ handle.length && handle.getLast? == some '!'

/-- A tag after its exclamation mark, which is passed along, and the rest. -/
def readTag (inFlow : Bool) (mark : Glyph) (gs : List Glyph) : Option (Tag × List Glyph) := do
  let (t, rest) ←
    match gs with
    | ⟨'<', _, _⟩ :: gs => do
      let (text, rest) ← readTagText true gs
      guard (!text.isEmpty && rest.head?.any (·.char == '>'))
      pure (⟨[], text⟩, rest.tail)
    | _ => do
      let (handle, rest) ← readHandle (mark :: gs)
      let (text, rest) ← readTagText false rest
      if isNamedHandle handle then
        guard (!text.isEmpty)
        pure (⟨handle, text⟩, rest)
      else
        let suffix := handle.tail ++ text
        pure (if suffix.isEmpty then ⟨[], ['!']⟩ else ⟨['!'], suffix⟩, rest)
  guard (atGap rest || (inFlow && rest.head?.any (·.char == ',')))
  pure (t, rest)

/-- A number of a version, and the rest. -/
def readVersionNumber (gs : List Glyph) : Option (Nat × List Glyph) := do
  let (ds, rest) := gs.span (·.char.isDigit)
  guard (ds.length ≤ 9)
  pure (← Decimal.digits? 10 (chars ds), rest)

/-- A directive after its percent sign; it takes the whole line. -/
def readDirective (line : List Glyph) : Option Token := do
  let (name, rest) := line.span fun g => isNameChar g.char
  guard (atGap rest)
  let rest := skipBlanks rest
  let (token, rest) ←
    match String.ofList (chars name) with
    | "YAML" => do
      let (major, rest) ← readVersionNumber rest
      guard (rest.head?.any (·.char == '.'))
      let (minor, rest) ← readVersionNumber rest.tail
      pure (Token.version major minor, rest)
    | "TAG" => do
      let (handle, rest) ← readHandle rest
      guard ((handle == ['!'] || isNamedHandle handle) && rest.head?.any Glyph.isBlank)
      let (text, rest) ← readTagText true (skipBlanks rest)
      guard (!text.isEmpty && atGap rest)
      pure (.handle handle text, rest)
    | _ => none
  guard (isLineEnd rest)
  pure token

/-! ## Entries -/

/-- An anchor or a tag if there is one, with the blanks behind it, and the rest. -/
def readProperty (inFlow : Bool) : List Glyph → Option (List Token × List Glyph)
  | [] => some ([], [])
  | g :: rest =>
    if g.char == '&' then (readName rest).map fun (name, rest) => ([.anchor name], skipBlanks rest)
    else if g.char == '!' then
      (readTag inFlow g rest).map fun (t, rest) => ([.tag t], skipBlanks rest)
    else some ([], g :: rest)

/-- An alias or a scalar if there is one; whether it was left behind a break; and the rest. -/
def readContent (inFlow : Bool) (inner : Nat) (gs : List Glyph) :
    Option (List Token × Bool × List Glyph) :=
  match gs with
  | [] => some ([], false, [])
  | g :: rest =>
    if g.char == '*' then (readName rest).map fun (name, rest) => ([.alias name], false, rest)
    else if g.char == '\'' then
      (readSingle Gap.none rest).map fun (s, rest) => ([.scalar false s], false, rest)
    else if g.char == '"' then
      (readDouble Gap.none rest).map fun (s, rest) => ([.scalar false s], false, rest)
    else if startsPlain inFlow gs then
      (readPlain inFlow inner Gap.none gs).map
        fun (s, broke, rest) => ([.scalar true s], broke, rest)
    else some ([], false, gs)

/-- A scalar or an alias with its properties.  At least one of them must be there. -/
def readEntry (inFlow : Bool) (inner : Nat) (gs : List Glyph) :
    Option (List Token × Bool × List Glyph) := do
  let (first, rest) ← readProperty inFlow gs
  let (second, rest) ← readProperty inFlow rest
  let (content, broke, rest) ← readContent inFlow inner rest
  let tokens := first ++ second ++ content
  guard (!tokens.isEmpty)
  pure (tokens, broke, rest)

/-! ## The scanner -/

/-- Where a scan stands: what is left, the columns of the block collections around it from the
inside out, the number of flow collections around it, and whether a key can begin here. -/
structure Scan where
  rest : List Glyph
  columns : List Nat
  flows : Nat
  keyAllowed : Bool

namespace Scan

/-- Whether the scan is inside a flow collection. -/
def inFlow (s : Scan) : Bool := 0 < s.flows

/-- The least column of what stands inside the innermost block collection. -/
def inner (s : Scan) : Nat :=
  match s.columns with
  | [] => 0
  | column :: _ => column + 1

/-- Block collections right of a column end there. -/
def leave (column : Nat) : List Nat → List Token × List Nat
  | [] => ([], [])
  | c :: columns =>
    if column < c then
      let (ends, left) := leave column columns
      (.blockEnd :: ends, left)
    else ([], c :: columns)

/-- A block collection begins at a column right of the innermost one. -/
def enter (start : Token) (column : Nat) (s : Scan) : List Token × List Nat :=
  if !s.inFlow && s.inner ≤ column then ([start], column :: s.columns) else ([], s.columns)

/-- The length that a key in front of its colon can have. -/
def keyLimit : Nat := 1024

/-- What follows the colon that makes what began at a glyph a key. -/
def afterColon? (s : Scan) (start : Glyph) (rest : List Glyph) : Option (List Glyph) :=
  match skipBlanks rest with
  | [] => none
  | g :: rest =>
    if s.keyAllowed && g.char == ':' && (s.inFlow || atGap rest) && g.line == start.line &&
        g.column ≤ start.column + keyLimit then
      some rest
    else none

/-- Whether only a key can stand at a glyph. -/
def needsKey (s : Scan) (g : Glyph) : Bool :=
  s.keyAllowed && !s.inFlow && s.columns.head? == some g.column

/-- An indicator of block context, which needs a place where a key can begin. -/
def indicator (token start : Token) (s : Scan) (g : Glyph) (rest : List Glyph) :
    Option (List Token × Scan) := do
  guard (s.inFlow || s.keyAllowed)
  let (tokens, columns) := s.enter start g.column
  pure (tokens ++ [token], { s with rest, columns, keyAllowed := !s.inFlow })

/-- The tokens that begin at a glyph, and the scan behind them. -/
def step (s : Scan) (g : Glyph) (rest : List Glyph) : Option (List Token × Scan) :=
  let all := g :: rest
  let flow (token : Token) (flows : Nat) (keyAllowed : Bool) : Option (List Token × Scan) :=
    some ([token], { s with rest, flows, keyAllowed })
  if g.column == 0 && g.char == '%' then do
    let token ← readDirective (lineOf rest)
    pure (s.columns.map (fun _ => .blockEnd) ++ [token],
      { s with rest := skipLine rest, columns := [], keyAllowed := false })
  else if atAnyMarker all then
    let token := if g.char == '-' then Token.documentStart else .documentEnd
    some (s.columns.map (fun _ => .blockEnd) ++ [token],
      { s with rest := all.drop 3, columns := [], keyAllowed := false })
  else if g.char == '[' || g.char == '\x7b' then do
    guard (!s.needsKey g)
    flow (if g.char == '[' then .flowList else .flowObject) (s.flows + 1) true
  else if g.char == ']' then flow .flowListEnd (s.flows - 1) false
  else if g.char == '\x7d' then flow .flowObjectEnd (s.flows - 1) false
  else if g.char == ',' then flow .separator s.flows true
  else if g.char == '-' && atGap rest then
    if s.inFlow then flow .item s.flows true else indicator .item .blockList s g rest
  else if g.char == '?' && (s.inFlow || atGap rest) then indicator .key .blockObject s g rest
  else if g.char == ':' && (s.inFlow || atGap rest) then indicator .value .blockObject s g rest
  else if !s.inFlow && (g.char == '|' || g.char == '>') then do
    let (text, rest) ← readBlock (g.char == '>') (s.columns.head?.getD 0) s.inner rest
    pure ([.scalar false text], { s with rest, keyAllowed := true })
  else do
    let (tokens, broke, rest) ← readEntry s.inFlow s.inner all
    match s.afterColon? g rest with
    | some rest =>
      let (start, columns) := s.enter .blockObject g.column
      pure (start ++ .key :: tokens ++ [.value], { s with rest, columns, keyAllowed := false })
    | none =>
      guard (!s.needsKey g)
      pure (tokens, { s with rest, keyAllowed := broke })

/-- The tokens from a scan on.  Every step leaves less of the text. -/
def tokens : Nat → Scan → Option (List Token)
  | 0, _ => none
  | fuel + 1, s => do
    let (keyAllowed, rest) := toToken s.inFlow s.keyAllowed false s.rest
    match rest with
    | [] => pure (s.columns.map fun _ => .blockEnd)
    | g :: rest =>
      let (ends, columns) := if s.inFlow then ([], s.columns) else leave g.column s.columns
      let (here, s) ← { s with keyAllowed, columns }.step g rest
      pure (ends ++ here ++ (← s.tokens fuel))

end Scan

/-- The tokens of a text. -/
def Token.ofText? (text : List Char) : Option (List Token) := do
  let glyphs ← Glyph.ofChars? text
  Scan.tokens (glyphs.length + 1) { rest := glyphs, columns := [], flows := 0, keyAllowed := true }

end Pipework.Yaml
