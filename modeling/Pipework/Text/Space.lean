/-!
# White space

The Unicode `White_Space` property, and trimming by it.  Texts are lists of characters throughout
the library's rules, so that each rule is a recursion on the text itself.
-/

namespace Pipework.Text

/-- The characters with the Unicode property `White_Space`. -/
def isSpace (c : Char) : Bool :=
  let n := c.toNat
  (9 ≤ n && n ≤ 13) || n == 0x20 || n == 0x85 || n == 0xA0 || n == 0x1680 ||
    (0x2000 ≤ n && n ≤ 0x200A) || n == 0x2028 || n == 0x2029 || n == 0x202F || n == 0x205F ||
    n == 0x3000

/-- The text without its leading white space. -/
def trimStart (s : List Char) : List Char :=
  s.dropWhile isSpace

/-- The text without its trailing characters of one kind. -/
def dropEndWhile (p : Char → Bool) : List Char → List Char
  | [] => []
  | c :: rest =>
    match dropEndWhile p rest with
    | [] => if p c then [] else [c]
    | kept => c :: kept

/-- The text without its trailing white space. -/
def trimEnd (s : List Char) : List Char :=
  dropEndWhile isSpace s

/-- The text without white space at either end. -/
def trim (s : List Char) : List Char :=
  trimEnd (trimStart s)

/-- A text of white space only, or none at all. -/
def isBlank (s : List Char) : Bool :=
  s.all isSpace

/-- The text without the characters of one kind at either end. -/
def dropAround (p : Char → Bool) (s : List Char) : List Char :=
  dropEndWhile p (s.dropWhile p)

end Pipework.Text
