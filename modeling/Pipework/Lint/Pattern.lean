import Pipework.Text.Lines
import Pipework.Text.Space
import Pipework.Text.Word

/-!
# Patterns in lines

The shapes that rules look for in a line: a key with its value, a pinned action, a word, a runtime
with its version.  A pattern is tried at every place from left to right and may look at the
character before it.
-/

namespace Pipework.Lint

open Text

/-! ## Searching -/

/-- The first place where a pattern matches. -/
def firstMatch {α : Type} (pattern : Option Char → List Char → Option α) :
    Option Char → List Char → Option α
  | prev, [] => pattern prev []
  | prev, c :: rest =>
    match pattern prev (c :: rest) with
    | some found => some found
    | none => firstMatch pattern (some c) rest

/-- All matches of a pattern, none overlapping the one before.  The pattern tells how many
characters it took; `skip` counts those of the last match that are still ahead. -/
def allMatches {α : Type} (pattern : Option Char → List Char → Option (α × Nat)) :
    Nat → Option Char → List Char → List α
  | _, _, [] => []
  | skip + 1, _, c :: rest => allMatches pattern skip (some c) rest
  | 0, prev, c :: rest =>
    match pattern prev (c :: rest) with
    | some (found, taken) => found :: allMatches pattern (taken - 1) (some c) rest
    | none => allMatches pattern 0 (some c) rest

/-- The number that ASCII digits denote, if 32 bits hold it. -/
def number32? (ds : List Char) : Option Nat :=
  if ds.isEmpty || !ds.all Char.isDigit then none
  else
    let n := ds.foldl (fun n c => 10 * n + (c.toNat - '0'.toNat)) 0
    if n < UInt32.size then some n else none

/-! ## Keys and values -/

/-- Whether a text is empty or goes on with white space: what may follow the colon of a key. -/
def endsKey (rest : List Char) : Bool :=
  rest.head?.all isSpace

/-- The characters with which a key without quotes may begin. -/
def startsKey (c : Char) : Bool :=
  c.isAlphanum || c == '_' || c == '$' || c == '.' || c == '<'

/-- Whether a text is a key, perhaps quoted, and a value. -/
def isKeyValue : List Char → Bool
  | [] => false
  | c :: rest =>
    if c == '"' || c == '\'' then
      match cut? [c] rest with
      | some (_, ':' :: after) => endsKey after
      | _ => false
    else
      startsKey c &&
        match cut? [':'] rest with
        | some (_, after) => endsKey after
        | none => false

/-- Whether a text begins as a bracketed or quoted value, an anchor, an alias or a block scalar. -/
def startsFlowOrQuote (s : List Char) : Bool :=
  s.head?.any fun c => "[\x7b\"'&*|>".toList.contains c

/-- A text up to its comment. -/
def withoutComment (s : List Char) : List Char :=
  before [' ', '#'] s

/-- Whether a line that is neither blank nor a comment can be part of a document. -/
def hasValidShape (trimmed : List Char) : Bool :=
  let code := trimEnd (withoutComment trimmed)
  if !code.contains ':' then true
  else
    match ['-', ' '].isPrefixOf? code with
    | some rest =>
      let item := trimStart rest
      isKeyValue item || startsFlowOrQuote item ||
        !(contains [':', ' '] item || item.getLast? == some ':')
    | none =>
      (startsFlowOrQuote code && !(code.head? == some '"' || code.head? == some '\'')) ||
        isKeyValue code

/-! ## Words and versions -/

/-- The characters of an action's name after the slash. -/
def isActionChar (c : Char) : Bool :=
  c.isAlphanum || c == '_' || c == '.' || c == '-'

/-- An action of the platform's own with the digits of its version: `actions/name@v1`. -/
def actionPin (prev : Option Char) (s : List Char) : Option ((List Char × List Char) × Nat) :=
  match "actions/".toList.isPrefixOf? s with
  | some rest =>
    let name := rest.takeWhile isActionChar
    match ['@', 'v'].isPrefixOf? (rest.dropWhile isActionChar) with
    | some version =>
      let digits := version.takeWhile isDecimalDigit
      let after := version.dropWhile isDecimalDigit
      if isBoundary prev s.head? && !name.isEmpty && !digits.isEmpty &&
          isBoundary digits.getLast? after.head? then
        some (("actions/".toList ++ name, digits), s.length - after.length)
      else none
    | none => none
  | none => none

/-- The word `word`, on its own. -/
def wholeWord (word : List Char) (prev : Option Char) (s : List Char) : Option Unit :=
  match word.isPrefixOf? s with
  | some rest =>
    if isBoundary prev s.head? && isBoundary word.getLast? rest.head? then some () else none
  | none => none

/-- Whether a line calls `echo`. -/
def mentionsEcho (s : List Char) : Bool :=
  (firstMatch (wholeWord "echo".toList) none s).isSome

/-- What stands after the mark of a runtime's version: after the setting `name-version:`, or after
the image `name:`. -/
def afterVersionMark (name : String) (prev : Option Char) (s : List Char) : Option (List Char) :=
  match (name ++ "-version:").toList.isPrefixOf? s with
  | some rest =>
    match trimStart rest with
    | c :: more => some (if c == '"' || c == '\'' then more else c :: more)
    | [] => none
  | none =>
    if isBoundary prev s.head? then (name ++ ":").toList.isPrefixOf? s else none

/-- The digits of a runtime's major version, and of its minor one if there is one. -/
def runtimeVersion (name : String) (prev : Option Char) (s : List Char) :
    Option (List Char × Option (List Char)) :=
  match afterVersionMark name prev s with
  | some rest =>
    let major := rest.takeWhile isDecimalDigit
    if major.isEmpty then none
    else
      match rest.dropWhile isDecimalDigit with
      | '.' :: more =>
        let minor := more.takeWhile isDecimalDigit
        some (major, if minor.isEmpty then none else some minor)
      | _ => some (major, none)
  | none => none

/-! ## Variables -/

/-- Whether a character continues the name of a shell variable. -/
def isNameChar (c : Char) : Bool :=
  c.isAlphanum || c == '_'

/-- Where `$name` stands, what follows it there. -/
def dollarName (name : List Char) (s : List Char) : Option (List Char) :=
  ('$' :: name).isPrefixOf? s

/-- Whether a text refers to the variable `name`, as `$name` or with braces. -/
def refersTo (name s : List Char) : Bool :=
  contains ('$' :: '\x7b' :: name ++ ['\x7d']) s ||
    (allMatches (fun _ rest =>
      (dollarName name rest).map fun after => (after.head?, name.length + 1)) 0 none s).any
        fun next => !next.any isNameChar

end Pipework.Lint
