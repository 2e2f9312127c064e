import Pipework.Text.Lines
import Pipework.Text.Space

/-!
# Scanned lines

A document as the linter sees it: numbered lines with their indentation, each told apart by whether
it belongs to the body of a block scalar.  Such a body is text of its own, so that no rule about
keys or indentation applies to it.
-/

namespace Pipework.Lint

open Text

/-- One line with its layout. -/
structure Line where
  /-- Counted from one. -/
  number : Nat
  raw : List Char
  /-- The number of spaces in front. -/
  indent : Nat
  /-- The line without white space at its ends. -/
  trimmed : List Char
  /-- Whether the line belongs to the body of a block scalar. -/
  inBlock : Bool
deriving Repr, DecidableEq

/-- Whether a text is the mark of a block scalar: a bar or an angle, then digits and signs. -/
def isBlockMark : List Char → Bool
  | c :: rest => (c == '|' || c == '>') && rest.all fun d => d.isDigit || d == '-' || d == '+'
  | [] => false

/-- Whether a line ends with the mark of a block scalar as the value of its key. -/
def opensBlock (trimmed : List Char) : Bool :=
  trimmed.head? != some '#' &&
    match cut? [':', ' '] trimmed with
    | some (_, value) => isBlockMark (trim (before [' ', '#'] value))
    | none => false

/-- The number of spaces in front of a line. -/
def leadingSpaces (raw : List Char) : Nat :=
  (raw.takeWhile (· == ' ')).length

/-- The lines from number `number` on; `parent` is the indentation of the line that opened the block
scalar they may belong to. -/
def scanFrom (number : Nat) (parent : Option Nat) : List (List Char) → List Line
  | [] => []
  | raw :: rest =>
    let trimmed := trim raw
    let indent := leadingSpaces raw
    let inBlock := parent.any fun p => trimmed.isEmpty || p < indent
    let parent :=
      if inBlock then parent
      else if opensBlock trimmed then some indent
      else none
    ⟨number, raw, indent, trimmed, inBlock⟩ :: scanFrom (number + 1) parent rest

/-- The lines of a document. -/
def scan (text : List Char) : List Line :=
  scanFrom 1 none (lines text)

namespace Line

/-- A line of white space. -/
def isBlank (l : Line) : Bool := l.trimmed.isEmpty

/-- A line that is a comment. -/
def isComment (l : Line) : Bool := l.trimmed.head? == some '#'

/-- A line that is part of the document's structure. -/
def isStructural (l : Line) : Bool := !l.isBlank && !l.isComment && !l.inBlock

/-- A structural line that is not indented. -/
def isTopLevel (l : Line) : Bool := l.isStructural && l.indent == 0

/-- The line without the dash of a list entry. -/
def body (l : Line) : List Char :=
  (['-', ' '].isPrefixOf? l.trimmed).getD l.trimmed

/-- A text without the quotes at its ends. -/
def unquote (s : List Char) : List Char :=
  dropAround (fun c => c == '"' || c == '\'') s

/-- The key of the line, with the rest after its colon. -/
def keyAndRest? (l : Line) : Option (List Char × List Char) :=
  if l.isStructural then
    match cut? [':'] l.body with
    | some (key, rest) =>
      let name := trim key
      if (rest.isEmpty || rest.head?.any isSpace) && !name.isEmpty && !name.any isSpace then
        some (unquote name, rest)
      else none
    | none => none
  else none

/-- The key of the line. -/
def key? (l : Line) : Option (List Char) :=
  l.keyAndRest?.map (·.1)

/-- The value after the key, empty for a key alone. -/
def value? (l : Line) : Option (List Char) :=
  l.keyAndRest?.map fun (_, rest) => trim rest

/-- Whether the line has this key. -/
def hasKey (l : Line) (name : String) : Bool :=
  l.key? == some name.toList

/-- A key without a value that is no list entry: it opens a nested block. -/
def isBareKey (l : Line) : Bool :=
  l.value? == some [] && !(['-', ' '].isPrefixOf l.trimmed)

end Line

/-- The lines below the first top-level line with a key, up to the next top-level line. -/
def blockChildren (lines : List Line) (name : String) : List Line :=
  match lines.dropWhile fun l => !(l.isTopLevel && l.hasKey name) with
  | [] => []
  | _ :: rest => rest.takeWhile (!·.isTopLevel)

/-- Whether some top-level line has a key. -/
def hasTopLevelKey (lines : List Line) (name : String) : Bool :=
  lines.any fun l => l.isTopLevel && l.hasKey name

end Pipework.Lint
