/-!
# Lines and searching

A text's lines end at line feeds; a carriage return right before the line feed belongs to the line's
end.  Beside them stand the few ways in which a rule looks for one text inside another.
-/

namespace Pipework.Text

/-- Put a character in front of the first of some lines, opening one if there is none. -/
def consLine (c : Char) : List (List Char) → List (List Char)
  | [] => [[c]]
  | line :: rest => (c :: line) :: rest

/-- The lines of a text without their ends.  What follows the last line feed is a line only when it
is not empty, and it keeps its carriage return. -/
def lines : List Char → List (List Char)
  | [] => []
  | '\n' :: rest => [] :: lines rest
  | '\r' :: '\n' :: rest => [] :: lines rest
  | c :: rest => consLine c (lines rest)

/-- The text before and after the first occurrence of `sep`. -/
def cut? (sep : List Char) : List Char → Option (List Char × List Char)
  | [] => if sep.isEmpty then some ([], []) else none
  | c :: rest =>
    match sep.isPrefixOf? (c :: rest) with
    | some after => some ([], after)
    | none => (cut? sep rest).map fun (before, after) => (c :: before, after)

/-- Whether `sep` occurs in the text. -/
def contains (sep s : List Char) : Bool :=
  (cut? sep s).isSome

/-- The text up to the first occurrence of `sep`, all of it if there is none. -/
def before (sep s : List Char) : List Char :=
  ((cut? sep s).map (·.1)).getD s

/-- The parts of a text between the characters `sep`. -/
def fields (sep : Char) : List Char → List (List Char)
  | [] => [[]]
  | c :: rest => if c == sep then [] :: fields sep rest else consLine c (fields sep rest)

end Pipework.Text
