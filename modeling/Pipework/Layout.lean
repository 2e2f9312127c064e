import Pipework.Text.Lines
import Pipework.Text.Quoted
import Pipework.Text.Space

/-!
# Laying out a document

A document is a list of lines, each a text at a nesting level, and a level is two spaces wide.
Scripts are literal blocks one level below their key; an indicator tells the reader where such a
block begins when its own first line is indented.
-/

namespace Pipework.Layout

/-- A line of a document. -/
structure Line where
  level : Nat
  text : List Char
deriving Repr, DecidableEq

/-- The spaces per level. -/
def levelWidth : Nat := 2

/-- The spaces in front of a line. -/
def indent (level : Nat) : List Char :=
  List.replicate (level * levelWidth) ' '

/-- A line as it is written; an empty one is not indented. -/
def Line.write (l : Line) : List Char :=
  (if l.text.isEmpty then [] else indent l.level ++ l.text) ++ ['\n']

/-- The text of a document. -/
def write (doc : List Line) : List Char :=
  doc.flatMap Line.write

/-- An empty line. -/
def blank : Line := ⟨0, []⟩

/-- A key that opens a nested block. -/
def key (level : Nat) (name : List Char) : Line :=
  ⟨level, name ++ [':']⟩

/-- A key of the format itself that opens a nested block. -/
def opening (level : Nat) (name : String) : Line :=
  key level name.toList

/-- A key with its value on the same line. -/
def entry (level : Nat) (name value : List Char) : Line :=
  ⟨level, name ++ ':' :: ' ' :: value⟩

/-- A key with strings in brackets. -/
def listEntry (level : Nat) (name : List Char) (items : List (List Char)) : Line :=
  entry level name (Text.flowList items)

/-- Whether the first line that is not empty begins with white space. -/
def startsIndented (content : List (List Char)) : Bool :=
  match content.find? (!·.isEmpty) with
  | some (c :: _) => Text.isSpace c
  | _ => false

/-- The mark of a literal block with these lines. -/
def blockMark (content : List (List Char)) : List Char :=
  if startsIndented content then '|' :: (toString levelWidth).toList else ['|']

/-- A key with a literal block below it. -/
def block (level : Nat) (name content : List Char) : List Line :=
  let lines := Text.lines content
  entry level name (blockMark lines) :: lines.map (⟨level + 1, ·⟩)

end Pipework.Layout
