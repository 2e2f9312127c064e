import Pipework.Decimal.Shortest
import Pipework.Named

/-!
# JSON values

Values with the fields of objects in a given order, and their two written forms: compact, and over
several lines with two spaces per level.  The fields of a value that was read are in the order of
their names.
-/

namespace Pipework

/-- The numbers of a document: integers of 64 bits, and doubles. -/
inductive Json.Number where
  | natural (value : Nat)
  /-- The integer `-value`. -/
  | negative (value : Nat)
  | decimal (value : Float)

/-- A JSON value. -/
inductive Json where
  | null
  | bool (value : Bool)
  | number (value : Json.Number)
  | string (value : String)
  | list (items : List Json)
  | object (fields : List (String × Json))
deriving Inhabited

namespace Json

/-- The text of a number. -/
def Number.write : Number → List Char
  | .natural n => (toString n).toList
  | .negative n => '-' :: (toString n).toList
  | .decimal x => Decimal.floatText x

/-- A character inside a string. -/
def escapeChar (c : Char) : List Char :=
  match c with
  | '"' => ['\\', '"']
  | '\\' => ['\\', '\\']
  | '\x08' => ['\\', 'b']
  | '\x0c' => ['\\', 'f']
  | '\n' => ['\\', 'n']
  | '\r' => ['\\', 'r']
  | '\t' => ['\\', 't']
  | c =>
    if c.toNat < 0x20 then
      '\\' :: 'u' :: '0' :: '0' :: Nat.digitChar (c.toNat / 16) :: [Nat.digitChar (c.toNat % 16)]
    else [c]

/-- A string between quotes. -/
def writeString (s : String) : List Char :=
  '"' :: s.toList.flatMap escapeChar ++ ['"']

mutual

/-- The compact text of a value. -/
def write : Json → List Char
  | .null => "null".toList
  | .bool b => (toString b).toList
  | .number n => n.write
  | .string s => writeString s
  | .list items => '[' :: writeItems items ++ [']']
  | .object fields => '\x7b' :: writeFields fields ++ ['\x7d']

/-- Items with commas between them. -/
def writeItems : List Json → List Char
  | [] => []
  | [item] => item.write
  | item :: rest => item.write ++ ',' :: writeItems rest

/-- Fields with commas between them. -/
def writeFields : List (String × Json) → List Char
  | [] => []
  | [(name, value)] => writeString name ++ ':' :: value.write
  | (name, value) :: rest => writeString name ++ ':' :: value.write ++ ',' :: writeFields rest

end

/-- The start of a line at a level. -/
def newline (level : Nat) : List Char :=
  '\n' :: List.replicate (2 * level) ' '

mutual

/-- The text of a value over several lines, inside a given level. -/
def writePretty (level : Nat) : Json → List Char
  | .null => "null".toList
  | .bool b => (toString b).toList
  | .number n => n.write
  | .string s => writeString s
  | .list [] => ['[', ']']
  | .list items => '[' :: writePrettyItems (level + 1) items ++ newline level ++ [']']
  | .object [] => ['\x7b', '\x7d']
  | .object fields => '\x7b' :: writePrettyFields (level + 1) fields ++ newline level ++ ['\x7d']

/-- Items on lines of their own. -/
def writePrettyItems (level : Nat) : List Json → List Char
  | [] => []
  | [item] => newline level ++ item.writePretty level
  | item :: rest => newline level ++ item.writePretty level ++ ',' :: writePrettyItems level rest

/-- Fields on lines of their own. -/
def writePrettyFields (level : Nat) : List (String × Json) → List Char
  | [] => []
  | [(name, value)] => newline level ++ writeString name ++ ':' :: ' ' :: value.writePretty level
  | (name, value) :: rest =>
    newline level ++ writeString name ++ ':' :: ' ' :: value.writePretty level ++
      ',' :: writePrettyFields level rest

end

/-- The compact text of a value. -/
def compact (v : Json) : String :=
  String.ofList v.write

/-- The text of a value over several lines. -/
def pretty (v : Json) : String :=
  String.ofList (v.writePretty 0)

end Json

end Pipework
