import Pipework.Yaml.Scalar

/-!
# Characters in their places

A document as a list of glyphs: characters with the line and the column that they stand at, both
counted from zero.  Carriage returns, next-line characters and the pair of carriage return and line
feed are line feeds here, so that what follows knows only one ordinary break.
-/

namespace Pipework.Yaml

/-- A character in its place. -/
structure Glyph where
  char : Char
  line : Nat
  column : Nat
deriving Repr, DecidableEq

namespace Glyph

/-- The characters that a document may hold. -/
def isAllowed (c : Char) : Bool :=
  let n := c.toNat
  n == 0x09 || n == 0x0A || n == 0x0D || (0x20 ≤ n && n ≤ 0x7E) || n == 0x85 ||
    (0xA0 ≤ n && n ≤ 0xD7FF) || (0xE000 ≤ n && n ≤ 0xFFFD) || 0x10000 ≤ n

/-- The glyphs of a text from a place on. -/
def ofCharsAt (line column : Nat) : List Char → List Glyph
  | [] => []
  | '\r' :: '\n' :: rest => ⟨'\n', line, column⟩ :: ofCharsAt (line + 1) 0 rest
  | c :: rest =>
    if c == '\r' || c.toNat == 0x85 then ⟨'\n', line, column⟩ :: ofCharsAt (line + 1) 0 rest
    else if isBreak c then ⟨c, line, column⟩ :: ofCharsAt (line + 1) 0 rest
    else ⟨c, line, column⟩ :: ofCharsAt line (column + 1) rest

/-- The mark that tells the encoding of a text. -/
def byteOrderMark : Char := '\ufeff'

/-- The glyphs of a text, if all its characters are allowed.  A mark of the encoding in front is no
part of it; one more stands on the first line and means nothing. -/
def ofChars? (text : List Char) : Option (List Glyph) :=
  let text := if text.head? == some byteOrderMark then text.tail else text
  if text.all isAllowed then
    let glyphs := ofCharsAt 0 0 text
    some (if text.head? == some byteOrderMark then glyphs.tail else glyphs)
  else none

/-- Whether a glyph ends a line. -/
def isBreak (g : Glyph) : Bool := Yaml.isBreak g.char

/-- Whether a glyph is a space or a tab. -/
def isBlank (g : Glyph) : Bool := g.char == ' ' || g.char == '\t'

/-- Whether a glyph is part of a word. -/
def isSolid (g : Glyph) : Bool := !g.isBlank && !g.isBreak

end Glyph

/-- Whether a blank, a break or the end comes next. -/
def atGap : List Glyph → Bool
  | [] => true
  | g :: _ => !g.isSolid

/-- The characters of glyphs. -/
def chars (gs : List Glyph) : List Char := gs.map (·.char)

/-- Past spaces and tabs. -/
def skipBlanks (gs : List Glyph) : List Glyph := gs.dropWhile Glyph.isBlank

/-- The rest of the line. -/
def lineOf (gs : List Glyph) : List Glyph := gs.takeWhile (!·.isBreak)

/-- Past the end of the line. -/
def skipLine (gs : List Glyph) : List Glyph := (gs.dropWhile (!·.isBreak)).tail

/-- Whether a mark between documents comes next: three equal characters at the start of a line. -/
def atMarker (c : Char) : List Glyph → Bool
  | x :: y :: z :: rest =>
    x.column == 0 && x.char == c && y.char == c && z.char == c && atGap rest
  | _ => false

/-- Whether any mark between documents comes next. -/
def atAnyMarker (gs : List Glyph) : Bool := atMarker '-' gs || atMarker '.' gs

/-- The glyphs from the next token on, past blanks, breaks and comments.  In block context a tab is
blank only where no key can begin, and a break makes the beginning of a key possible. -/
def toToken (inFlow : Bool) : Bool → Bool → List Glyph → Bool × List Glyph
  | keyAllowed, _, [] => (keyAllowed, [])
  | keyAllowed, comment, g :: rest =>
    if g.isBreak then toToken inFlow (keyAllowed || !inFlow) false rest
    else if comment then toToken inFlow keyAllowed true rest
    else if g.char == ' ' || (g.char == '\t' && (inFlow || !keyAllowed)) then
      toToken inFlow keyAllowed false rest
    else if g.char == '#' then toToken inFlow keyAllowed true rest
    else (keyAllowed, g :: rest)

end Pipework.Yaml
