import Pipework.Json.Basic
import Pipework.Text.Shown

/-!
# Why a value could not be read

The causes for which a text is no JSON, and those for which a value is not of the form that was
asked for.  A cause met in a text comes with its place there; one met in a value has none.
-/

namespace Pipework.Json

/-- A place in a text: the line, counted from one, and the bytes since its start. -/
structure Place where
  line : Nat
  column : Nat
deriving Repr, DecidableEq

namespace Place

/-- The start of a text. -/
def start : Place := ⟨1, 0⟩

/-- The place after a character. -/
def after (p : Place) (c : Char) : Place :=
  if c == '\n' then ⟨p.line + 1, 0⟩ else ⟨p.line, p.column + c.utf8Size⟩

/-- The place after the first byte of what follows, if anything does. -/
def afterByte (p : Place) : List Char → Place
  | [] => p
  | '\n' :: _ => ⟨p.line + 1, 0⟩
  | _ => ⟨p.line, p.column + 1⟩

/-- The place after a number of bytes. -/
def afterBytes (p : Place) : Nat → List Char → Place
  | 0, _ => p
  | _, [] => p
  | n + 1, c :: rest =>
    if c.utf8Size ≤ n + 1 then afterBytes (p.after c) (n + 1 - c.utf8Size) rest
    else ⟨p.line, p.column + (n + 1)⟩
  termination_by _ rest => rest.length

end Place

/-- What was found where something else was expected. -/
inductive Found where
  | null
  | bool (value : Bool)
  | number (value : Number)
  | string (value : String)
  | list
  | object

/-- Why a value could not be read. -/
inductive Cause where
  | endInList
  | endInObject
  | endInString
  | endInValue
  | expectedColon
  | expectedListEnd
  | expectedObjectEnd
  | expectedWord
  | expectedValue
  | invalidEscape
  | invalidNumber
  | numberOutOfRange
  | controlCharacter
  | keyNotString
  | loneSurrogate
  | unfinishedSurrogate
  | trailingComma
  | trailingText
  | tooDeep
  /-- A value of another type than the expected one. -/
  | wrongType (found : Found) (expected : String)
  /-- A value of the right type that is not allowed. -/
  | wrongValue (found : Found) (expected : String)
  | wrongLength (length : Nat) (expected : String)
  | unknownVariant (name : String) (known : List String)
  | missingField (name : String)
  | duplicateField (name : String)
  /-- A string that is not of the expected form, with the reason. -/
  | malformed (reason : String)

/-- A cause with its place, if it was met in a text. -/
structure Error where
  cause : Cause
  place : Option Place

/-- How a report names what was found. -/
def Found.describe : Found → String
  | .null => "null"
  | .bool b => s!"boolean `{b}`"
  | .number (.decimal x) => s!"floating point `{String.ofList (Decimal.floatText x)}`"
  | .number n => s!"integer `{String.ofList n.write}`"
  | .string s => s!"string {String.ofList (Text.shown s.toList)}"
  | .list => "sequence"
  | .object => "map"

/-- The known names of variants as a report lists them. -/
def describeKnown (known : List String) : String :=
  match known with
  | [] => "there are no variants"
  | [a] => s!"expected `{a}`"
  | [a, b] => s!"expected `{a}` or `{b}`"
  | many => "expected one of " ++ String.intercalate ", " (many.map fun a => s!"`{a}`")

/-- The report of a cause. -/
def Cause.message : Cause → String
  | .endInList => "EOF while parsing a list"
  | .endInObject => "EOF while parsing an object"
  | .endInString => "EOF while parsing a string"
  | .endInValue => "EOF while parsing a value"
  | .expectedColon => "expected `:`"
  | .expectedListEnd => "expected `,` or `]`"
  | .expectedObjectEnd => "expected `,` or `\x7d`"
  | .expectedWord => "expected ident"
  | .expectedValue => "expected value"
  | .invalidEscape => "invalid escape"
  | .invalidNumber => "invalid number"
  | .numberOutOfRange => "number out of range"
  | .controlCharacter => "control character (\\u0000-\\u001F) found while parsing a string"
  | .keyNotString => "key must be a string"
  | .loneSurrogate => "lone leading surrogate in hex escape"
  | .unfinishedSurrogate => "unexpected end of hex escape"
  | .trailingComma => "trailing comma"
  | .trailingText => "trailing characters"
  | .tooDeep => "recursion limit exceeded"
  | .wrongType found expected => s!"invalid type: {found.describe}, expected {expected}"
  | .wrongValue found expected => s!"invalid value: {found.describe}, expected {expected}"
  | .wrongLength length expected => s!"invalid length {length}, expected {expected}"
  | .unknownVariant name known => s!"unknown variant `{name}`, {describeKnown known}"
  | .missingField name => s!"missing field `{name}`"
  | .duplicateField name => s!"duplicate field `{name}`"
  | .malformed reason => reason

/-- The report of an error. -/
def Error.message (e : Error) : String :=
  match e.place with
  | some p => s!"{e.cause.message} at line {p.line} column {p.column}"
  | none => e.cause.message

/-- What a value is found to be. -/
def found : Json → Found
  | .null => .null
  | .bool b => .bool b
  | .number n => .number n
  | .string s => .string s
  | .list _ => .list
  | .object _ => .object

end Pipework.Json
