import Pipework.Yaml.Resolve
import Pipework.Text.Quoted

/-!
# Written scalars

The form in which a string is written as a scalar: plain where it reads back as that string, between
single quotes where a plain scalar would mean something else, between double quotes where it holds
characters that have to be escaped, and as a literal block where it has several lines.  `Shape`
collects what the choice depends on.
-/

namespace Pipework.Yaml

/-- The characters that stand for themselves in a document. -/
def isPrintable (c : Char) : Bool :=
  let n := c.toNat
  n == 0x0A || (0x20 ≤ n && n ≤ 0x7E) || (0xA0 ≤ n && n ≤ 0xD7FF) ||
    (0xE000 ≤ n && n ≤ 0xFFFD && n != 0xFEFF) || 0x10000 ≤ n

/-- Line breaks. -/
def isBreak (c : Char) : Bool :=
  c == '\n' || c == '\r' || c.toNat == 0x85 || c.toNat == 0x2028 || c.toNat == 0x2029

/-- Spaces, tabs, line breaks and the end of the text, as which a null character counts too. -/
def isBlankOrEnd : Option Char → Bool
  | none => true
  | some c => c == ' ' || c == '\t' || c == '\x00' || isBreak c

/-- Whether some two neighbours are a break and a space, in the order given by the
two predicates. -/
def hasPair (first second : Char → Bool) : List Char → Bool
  | a :: b :: rest => (first a && second b) || hasPair first second (b :: rest)
  | _ => false

/-- Whether an indicator after the first character makes a plain scalar impossible: a comment sign
after a blank, or a colon before one. -/
def hasInnerIndicator : Option Char → List Char → Bool
  | _, [] => false
  | before, c :: rest =>
    (c == '#' && isBlankOrEnd before) || (c == ':' && isBlankOrEnd rest.head?) ||
      hasInnerIndicator (some c) rest

/-- Whether a plain scalar may not begin as the text does. -/
def hasLeadingIndicator : List Char → Bool
  | [] => false
  | c :: rest =>
    "#,[]\x7b\x7d&*!|>'\"%@\x60".toList.contains c ||
      ("?:-".toList.contains c && isBlankOrEnd rest.head?) ||
      (c == '-' && rest.take 2 == ['-', '-']) || (c == '.' && rest.take 2 == ['.', '.'])

/-- Whether the text holds indicators that a plain scalar cannot. -/
def hasIndicator (s : List Char) : Bool :=
  hasLeadingIndicator s || hasInnerIndicator s.head? s.tail

/-- Whether the text has to be escaped: unprintable characters, or a space before a break. -/
def needsEscapes (s : List Char) : Bool :=
  s.any (!isPrintable ·) || hasPair (· == ' ') isBreak s

/-- Whether the text can stand plain. -/
def plainAllowed (s : List Char) : Bool :=
  !(s.any isBreak || s.head? == some ' ' || s.getLast? == some ' ' || needsEscapes s ||
    hasIndicator s)

/-- Whether the text can stand between single quotes. -/
def singleAllowed (s : List Char) : Bool :=
  !(hasPair isBreak (· == ' ') s || needsEscapes s)

/-- Whether the text can stand as a literal block. -/
def blockAllowed (s : List Char) : Bool :=
  !(s.getLast? == some ' ' || needsEscapes s)

/-- The forms of a scalar. -/
inductive Form where
  | plain
  | single
  | double
  | literal
deriving Repr, DecidableEq

/-- The form of a string. -/
def form (s : List Char) : Form :=
  if s.contains '\n' then
    if blockAllowed s then .literal else .double
  else if (resolve s).isText && !hasLeadingZero s && plainAllowed s then .plain
  else if singleAllowed s then .single
  else .double

/-- A number in hexadecimal with at least `width` digits. -/
def hex (width n : Nat) : List Char :=
  let ds := (Nat.toDigits 16 n).map Char.toUpper
  List.replicate (width - ds.length) '0' ++ ds

/-- The escape of a character between double quotes. -/
def escape (c : Char) : List Char :=
  match c.toNat with
  | 0x00 => ['\\', '0']
  | 0x07 => ['\\', 'a']
  | 0x08 => ['\\', 'b']
  | 0x09 => ['\\', 't']
  | 0x0A => ['\\', 'n']
  | 0x0B => ['\\', 'v']
  | 0x0C => ['\\', 'f']
  | 0x0D => ['\\', 'r']
  | 0x1B => ['\\', 'e']
  | 0x22 => ['\\', '"']
  | 0x5C => ['\\', '\\']
  | 0x85 => ['\\', 'N']
  | 0xA0 => ['\\', '_']
  | 0x2028 => ['\\', 'L']
  | 0x2029 => ['\\', 'P']
  | n =>
    if n ≤ 0xFF then '\\' :: 'x' :: hex 2 n
    else if n ≤ 0xFFFF then '\\' :: 'u' :: hex 4 n
    else '\\' :: 'U' :: hex 8 n

/-- A character between double quotes. -/
def doubleChar (c : Char) : List Char :=
  if !isPrintable c || isBreak c || c == '"' || c == '\\' then escape c else [c]

/-- A string between double quotes. -/
def writeDouble (s : List Char) : List Char :=
  '"' :: s.flatMap doubleChar ++ ['"']

/-- The inside of a single-quoted scalar.  After a break the next line is indented; `atBreak` tells
that a break has just been written. -/
def singleBody (indent : Nat) : Bool → List Char → List Char
  | atBreak, [] => if atBreak then List.replicate indent ' ' else []
  | atBreak, c :: rest =>
    if isBreak c then c :: singleBody indent true rest
    else
      (if atBreak then List.replicate indent ' ' else []) ++ Text.doubleSingleQuote c ++
        singleBody indent false rest

/-- A string between single quotes. -/
def writeSingle (indent : Nat) (s : List Char) : List Char :=
  '\'' :: singleBody indent false s ++ ['\'']

/-- The spaces by which a scalar at the top of a document is indented. -/
def topIndent : Nat := 2

/-- A string as a scalar on one line. -/
def writeInline (indent : Nat) (s : List Char) : List Char :=
  match form s with
  | .plain => s
  | .single => writeSingle indent s
  | .double => writeDouble s
  | .literal => writeDouble s

/-- A string as the value of an entry on one line.  Several lines are written between
double quotes. -/
def scalar (s : List Char) : List Char :=
  if s.any (fun c => c == '\n' || c == '\r') then Text.doubleQuoted s else writeInline topIndent s

end Pipework.Yaml
