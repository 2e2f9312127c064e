import Pipework.Yaml.Glyph

/-!
# The text of scalars

Reading the text of plain, quoted and block scalars.  In the first two a gap between words is kept
if it is on one line; a break becomes a space, and further breaks stay.  A block scalar is read as
its lines first, which are then put together literally or folded.
-/

namespace Pipework.Yaml

/-! ## Gaps between words -/

/-- What separates two words of a scalar. -/
inductive Gap where
  /-- Blanks on one line, perhaps none. -/
  | blanks (text : List Char)
  /-- Breaks: the first, unless it is escaped, and the further ones. -/
  | breaks (first : Option Char) (more : List Char)

namespace Gap

/-- No gap. -/
def none : Gap := .blanks []

/-- The gap with one more blank; blanks beside breaks do not count. -/
def addBlank (c : Char) : Gap → Gap
  | blanks s => blanks (s ++ [c])
  | gap => gap

/-- The gap with one more break. -/
def addBreak (c : Char) : Gap → Gap
  | blanks _ => breaks (some c) []
  | breaks first more => breaks first (more ++ [c])

/-- What the gap is in the text. -/
def text : Gap → List Char
  | blanks s => s
  | breaks .none more => more
  | breaks (some c) more =>
    if c == '\n' then (if more.isEmpty then [' '] else more) else c :: more

/-- Whether there is a gap at all. -/
def isEmpty : Gap → Bool
  | blanks s => s.isEmpty
  | breaks .. => false

/-- Whether the gap spans lines. -/
def hasBreak : Gap → Bool
  | blanks _ => false
  | breaks .. => true

end Gap

/-! ## Plain scalars -/

/-- The characters that open something else than a plain scalar. -/
def indicators : List Char := "-?:,[]\x7b\x7d#&*!|>'\"%@\x60".toList

/-- The characters that separate the parts of a flow collection. -/
def flowIndicators : List Char := ",[]\x7b\x7d".toList

/-- Whether a plain scalar can begin here. -/
def startsPlain (inFlow : Bool) : List Glyph → Bool
  | [] => false
  | g :: rest =>
    g.isSolid &&
      (!indicators.contains g.char || (g.char == '-' && !atGap rest) ||
        (!inFlow && (g.char == '?' || g.char == ':') && !atGap rest))

/-- Whether a plain scalar ends before this glyph. -/
def endsPlain (inFlow : Bool) (g : Glyph) (rest : List Glyph) : Bool :=
  (g.char == ':' && atGap rest) || (inFlow && flowIndicators.contains g.char)

/-- Whether a colon stands where a flow collection does not allow one. -/
def isStrayColon (inFlow : Bool) (g : Glyph) (rest : List Glyph) : Bool :=
  inFlow && g.char == ':' && rest.head?.any fun h => h.char == '?' || flowIndicators.contains h.char

/-- The text of a plain scalar whose further lines stand at `indent` or right of it, whether it was
left behind a break, and the rest. -/
def readPlain (inFlow : Bool) (indent : Nat) :
    Gap → List Glyph → Option (List Char × Bool × List Glyph)
  | gap, [] => some ([], gap.hasBreak, [])
  | gap, g :: rest =>
    let stop := some ([], gap.hasBreak, g :: rest)
    if g.isBreak then readPlain inFlow indent (gap.addBreak g.char) rest
    else if g.isBlank then
      if gap.hasBreak && g.column < indent && g.char == '\t' then .none
      else readPlain inFlow indent (gap.addBlank g.char) rest
    else if !gap.isEmpty &&
        ((!inFlow && g.column < indent) || atAnyMarker (g :: rest) || g.char == '#') then stop
    else if isStrayColon inFlow g rest then .none
    else if endsPlain inFlow g rest then stop
    else
      (readPlain inFlow indent Gap.none rest).map fun (s, broke, rest) =>
        (gap.text ++ g.char :: s, broke, rest)

/-! ## Quoted scalars -/

/-- The character that a backslash and a letter stand for. -/
def unescape? : Char → Option Char
  | '0' => some '\x00'
  | 'a' => some '\x07'
  | 'b' => some '\x08'
  | 't' => some '\t'
  | '\t' => some '\t'
  | 'n' => some '\n'
  | 'v' => some '\x0b'
  | 'f' => some '\x0c'
  | 'r' => some '\r'
  | 'e' => some '\x1b'
  | ' ' => some ' '
  | '"' => some '"'
  | '/' => some '/'
  | '\\' => some '\\'
  | 'N' => some '\u0085'
  | '_' => some '\u00a0'
  | 'L' => some '\u2028'
  | 'P' => some '\u2029'
  | _ => none

/-- The character with a number in hexadecimal. -/
def charOfHex? (ds : List Glyph) : Option Char := do
  let n ← Decimal.digits? 16 (chars ds)
  if h : n.isValidChar then some (Char.ofNatAux n h) else none

/-- The text of a scalar between single quotes, after the opening one, and the rest. -/
def readSingle : Gap → List Glyph → Option (List Char × List Glyph)
  | _, [] => none
  | gap, g :: rest =>
    if g.isBreak then readSingle (gap.addBreak g.char) rest
    else if g.isBlank then readSingle (gap.addBlank g.char) rest
    else if atAnyMarker (g :: rest) then none
    else if g.char == '\'' then
      match rest with
      | h :: more =>
        if h.char == '\'' then
          (readSingle Gap.none more).map fun (s, rest) => (gap.text ++ '\'' :: s, rest)
        else some (gap.text, rest)
      | [] => some (gap.text, [])
    else (readSingle Gap.none rest).map fun (s, rest) => (gap.text ++ g.char :: s, rest)

/-- The text of a scalar between double quotes, after the opening one, and the rest. -/
def readDouble : Gap → List Glyph → Option (List Char × List Glyph)
  | _, [] => none
  | gap, g :: rest =>
    if g.isBreak then readDouble (gap.addBreak g.char) rest
    else if g.isBlank then readDouble (gap.addBlank g.char) rest
    else if atAnyMarker (g :: rest) then none
    else if g.char == '"' then some (gap.text, rest)
    else if g.char == '\\' then
      let escaped (c : Option Char) (after : Option (List Char × List Glyph)) :
          Option (List Char × List Glyph) := do
        let c ← c
        let (s, rest) ← after
        pure (gap.text ++ c :: s, rest)
      match rest with
      | ⟨'x', _, _⟩ :: a :: b :: more =>
        escaped (charOfHex? [a, b]) (readDouble Gap.none more)
      | ⟨'u', _, _⟩ :: a :: b :: c :: d :: more =>
        escaped (charOfHex? [a, b, c, d]) (readDouble Gap.none more)
      | ⟨'U', _, _⟩ :: a :: b :: c :: d :: e :: f :: g :: h :: more =>
        escaped (charOfHex? [a, b, c, d, e, f, g, h]) (readDouble Gap.none more)
      | e :: more =>
        if e.isBreak then
          (readDouble (.breaks .none []) more).map fun (s, rest) => (gap.text ++ s, rest)
        else escaped (unescape? e.char) (readDouble Gap.none more)
      | [] => none
    else (readDouble Gap.none rest).map fun (s, rest) => (gap.text ++ g.char :: s, rest)

/-! ## Block scalars -/

/-- A line of a block scalar: its text, the break that ends it, and the breaks of empty
lines below. -/
structure BlockLine where
  text : List Char
  ending : Option Char
  below : List Char

mutual

/-- The rest of a line of a block scalar, the lines below it, and what follows. -/
def readBlockLine (indent : Nat) : List Glyph → Option (BlockLine × List BlockLine × List Glyph)
  | [] => some (⟨[], none, []⟩, [], [])
  | g :: rest =>
    if g.isBreak then
      (readBlockLines indent rest).map fun (below, lines, rest) =>
        (⟨[], some g.char, below⟩, lines, rest)
    else
      (readBlockLine indent rest).map fun (line, lines, rest) =>
        ({ line with text := g.char :: line.text }, lines, rest)

/-- The breaks of empty lines, the lines of a block scalar below them, and what follows.  A tab
cannot stand in the indentation. -/
def readBlockLines (indent : Nat) : List Glyph → Option (List Char × List BlockLine × List Glyph)
  | [] => some ([], [], [])
  | g :: rest =>
    if g.column < indent && g.char == ' ' then readBlockLines indent rest
    else if g.column < indent && g.char == '\t' then none
    else if g.isBreak then
      (readBlockLines indent rest).map fun (below, lines, rest) => (g.char :: below, lines, rest)
    else if g.column == indent then
      (readBlockLine indent rest).map fun (line, lines, rest) =>
        ([], { line with text := g.char :: line.text } :: lines, rest)
    else some ([], [], g :: rest)

end

/-- The indentation of a block scalar that does not tell it: that of its first line, or of a deeper
empty line above. -/
def blockIndent? (deepest : Nat) : List Glyph → Option Nat
  | [] => some deepest
  | g :: rest =>
    if g.char == ' ' then blockIndent? (max deepest (g.column + 1)) rest
    else if g.char == '\t' then none
    else if g.isBreak then blockIndent? deepest rest
    else some deepest

/-- Whether a line begins with a blank, which keeps the breaks around it. -/
def BlockLine.isIndented (l : BlockLine) : Bool :=
  l.text.head?.any fun c => c == ' ' || c == '\t'

/-- What stands between two lines of a block scalar. -/
def betweenLines (folded : Bool) (above below : BlockLine) : List Char :=
  if folded && above.ending == some '\n' && !above.isIndented && !below.isIndented then
    if above.below.isEmpty then [' '] else above.below
  else above.ending.toList ++ above.below

/-- How the breaks at the end of a block scalar are treated. -/
inductive Chomping where
  | strip
  | clip
  | keep
deriving Repr, DecidableEq

/-- The text of the lines of a block scalar. -/
def joinLines (folded : Bool) (chomping : Chomping) : List BlockLine → List Char
  | [] => []
  | [l] =>
    match chomping with
    | .strip => l.text
    | .clip => l.text ++ l.ending.toList
    | .keep => l.text ++ l.ending.toList ++ l.below
  | l :: next :: rest =>
    l.text ++ betweenLines folded l next ++ joinLines folded chomping (next :: rest)

/-- The text of a block scalar; the breaks above its first line are part of it. -/
def joinBlock (folded : Bool) (chomping : Chomping) (above : List Char) (lines : List BlockLine) :
    List Char :=
  match lines with
  | [] => if chomping == .keep then above else []
  | lines => above ++ joinLines folded chomping lines

/-- The chomping and the indentation in the header of a block scalar, and what follows them. -/
def readHeader (header : List Glyph) : Option (Chomping × Option Nat × List Glyph) := do
  let chomp? (c : Char) : Option Chomping :=
    if c == '+' then some .keep else if c == '-' then some .strip else none
  let digit? (c : Char) : Option (Option Nat) :=
    if c == '0' then none
    else some (if c.isDigit then some (c.toNat - '0'.toNat) else Option.none)
  match header with
  | [] => pure (.clip, none, [])
  | a :: rest =>
    match chomp? a.char with
    | some chomping =>
      match rest with
      | [] => pure (chomping, none, [])
      | b :: more =>
        match ← digit? b.char with
        | some n => pure (chomping, some n, more)
        | none => pure (chomping, none, rest)
    | none =>
      match ← digit? a.char with
      | none => pure (.clip, none, header)
      | some n =>
        match rest with
        | [] => pure (.clip, some n, [])
        | b :: more =>
          match chomp? b.char with
          | some chomping => pure (chomping, some n, more)
          | none => pure (.clip, some n, rest)

/-- Whether nothing but blanks and a comment is left of a line. -/
def isLineEnd (line : List Glyph) : Bool :=
  match skipBlanks line with
  | [] => true
  | g :: _ => g.char == '#'

/-- A block scalar after its indicator: its text, and what follows.  `parent` is the column of the
collection around it, and `inner` the least column inside that. -/
def readBlock (folded : Bool) (parent inner : Nat) (gs : List Glyph) :
    Option (List Char × List Glyph) := do
  let (chomping, increment, header) ← readHeader (lineOf gs)
  guard (isLineEnd header)
  let body := skipLine gs
  let indent ←
    match increment with
    | some n => pure (parent + n)
    | none => pure (max (← blockIndent? 0 body) (max inner 1))
  let (above, lines, rest) ← readBlockLines indent body
  pure (joinBlock folded chomping above lines, rest)

end Pipework.Yaml
