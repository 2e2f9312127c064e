import Pipework.Json.Basic
import Pipework.Text.Bytes
import Pipework.Yaml.Scalar

/-!
# Written documents

A value as a document in block style.  A list inside an object is not indented further than the
object's keys; an object or a list inside a list begins on the line of its dash.  A key that is long
or has several lines is written with a question mark of its own.
-/

namespace Pipework.Yaml

/-! ## Literal blocks -/

/-- How many of the breaks at the end of a literal block belong to it. -/
def chomping (s : List Char) : List Char :=
  match s.reverse with
  | [] => ['-']
  | c :: rest =>
    if !isBreak c then ['-']
    else match rest with
      | [] => ['+']
      | d :: _ => if isBreak d then ['+'] else []

/-- The lines of a literal block.  Only lines that are not empty are indented. -/
def blockBody (indent : Nat) : Bool → List Char → List Char
  | _, [] => []
  | atBreak, c :: rest =>
    if isBreak c then c :: blockBody indent true rest
    else (if atBreak then List.replicate indent ' ' else []) ++ c :: blockBody indent false rest

/-- The mark of a literal block, which tells the indentation if the first line cannot. -/
def blockMark (s : List Char) : List Char :=
  '|' :: (if s.head?.any fun c => c == ' ' || isBreak c then ['2'] else []) ++ chomping s

/-- A string as a literal block. -/
def writeBlock (indent : Nat) (s : List Char) : List Char :=
  blockMark s ++ '\n' :: blockBody indent true s

/-- A string as a scalar, with its further lines indented by some spaces. -/
def writeString (indent : Nat) (s : List Char) : List Char :=
  if form s == .literal then writeBlock indent s else writeInline indent s

/-! ## Containers -/

/-- The end of a line, unless the text has just ended one. -/
def endLine (s : List Char) : List Char :=
  match s.getLast? with
  | some c => if isBreak c then s else s ++ ['\n']
  | none => ['\n']

/-- The length in bytes up to which a key can stand in front of its colon. -/
def simpleKeyLimit : Nat := 128

/-- Whether a key can stand in front of its colon. -/
def isSimpleKey (key : List Char) : Bool :=
  !key.any isBreak && Text.byteCount key ≤ simpleKeyLimit

/-- Whether a value takes lines of its own. -/
def isNested : Json → Bool
  | .list items => !items.isEmpty
  | .object fields => !fields.isEmpty
  | _ => false

/-- The spaces by which what stands inside something is indented further. -/
def nesting : Nat := 2

/-- The column of the lines of a nested value under a key. -/
def nestedColumn (column : Nat) : Json → Nat
  | .list _ => column
  | _ => column + nesting

/-- The start of a line at a column; the first line of a value has been started by what holds it. -/
def lineStart (column : Nat) (first : Bool) : List Char :=
  if first then [] else List.replicate column ' '

mutual

/-- A value whose lines stand at a column, from the middle of its first line to the end of
its last. -/
def writeValue (column : Nat) : Json → List Char
  | .null => endLine "null".toList
  | .bool b => endLine (toString b).toList
  | .number n => endLine n.write
  | .string s => endLine (writeString column s.toList)
  | .list [] => endLine ['[', ']']
  | .list (item :: rest) => writeItems column true (item :: rest)
  | .object [] => endLine ['\x7b', '\x7d']
  | .object (f :: rest) => writeFields column true (f :: rest)

/-- The items of a list, each after a dash. -/
def writeItems (column : Nat) (first : Bool) : List Json → List Char
  | [] => []
  | item :: rest =>
    lineStart column first ++ '-' :: ' ' :: writeValue (column + nesting) item ++
      writeItems column false rest

/-- The fields of an object. -/
def writeFields (column : Nat) (first : Bool) : List (String × Json) → List Char
  | [] => []
  | (name, v) :: rest =>
    let key := writeString (column + nesting) name.toList
    let entry :=
      if !isSimpleKey name.toList then
        '?' :: ' ' :: endLine key ++ lineStart column false ++
          ':' :: ' ' :: writeValue (column + nesting) v
      else if isNested v then
        let nested := nestedColumn column v
        key ++ ':' :: '\n' :: lineStart nested false ++ writeValue nested v
      else key ++ ':' :: ' ' :: writeValue (column + nesting) v
    lineStart column first ++ entry ++ writeFields column false rest

end

/-- A value as a document. -/
def document (v : Json) : List Char :=
  writeValue (if isNested v then 0 else topIndent) v

end Pipework.Yaml
