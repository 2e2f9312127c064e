import Pipework.Decimal.Literal

/-!
# What a plain scalar means

The resolution of unquoted scalars: nulls, booleans, integers in four bases, decimals, and
everything else a string.  Leading zeros make a run of digits a string.  An integer beyond 128 bits
is read as a decimal; one beyond 64 bits keeps a kind of its own, since no number of a document can
hold it.
-/

namespace Pipework.Yaml

open Pipework.Decimal

/-- The meaning of a plain scalar. -/
inductive Resolved where
  | null
  | bool (value : Bool)
  /-- A non-negative integer of at most 64 bits. -/
  | natural (value : Nat)
  /-- The integer `-value`, of at most 64 bits. -/
  | negative (value : Nat)
  /-- An integer of more than 64 and at most 128 bits. -/
  | wide
  | decimal (value : Literal)
  /-- Infinity, of either sign, or not a number. -/
  | nonFinite
  | text

/-- The spellings of null. -/
def isNull (s : List Char) : Bool :=
  ["null", "Null", "NULL", "~"].any (·.toList == s)

/-- The spellings of the booleans. -/
def bool? (s : List Char) : Option Bool :=
  if ["true", "True", "TRUE"].any (·.toList == s) then some true
  else if ["false", "False", "FALSE"].any (·.toList == s) then some false
  else none

/-- Whether a text opens with a sign. -/
def isSigned : List Char → Bool
  | '+' :: _ => true
  | '-' :: _ => true
  | _ => false

/-- The text after one sign, if it opens with one. -/
def unsigned : List Char → List Char
  | '+' :: rest => rest
  | '-' :: rest => rest
  | s => s

/-- The text after a plus sign, if it opens with one. -/
def unplussed : List Char → List Char
  | '+' :: rest => rest
  | s => s

/-- Several digits of which the first is a zero: such a scalar is a string. -/
def hasLeadingZero (s : List Char) : Bool :=
  match unsigned s with
  | '0' :: d :: rest => (d :: rest).all Char.isDigit
  | _ => false

/-- The digits of an unsigned integer with a base mark. -/
def based? : List Char → Option Nat
  | '0' :: 'x' :: ds => digits? 16 ds
  | '0' :: 'o' :: ds => digits? 8 ds
  | '0' :: 'b' :: ds => digits? 2 ds
  | _ => none

/-- A non-negative integer. -/
def natural? (s : List Char) : Option Nat :=
  match based? (unplussed s) with
  | some n => some n
  | none =>
    if isSigned (unplussed s) || hasLeadingZero s then none else digits? 10 (unplussed s)

/-- The size of an integer with a minus sign. -/
def negative? : List Char → Option Nat
  | '-' :: s =>
    match based? s with
    | some n => some n
    | none => if hasLeadingZero s then none else digits? 10 s
  | _ => none

/-- The number of integers of 128 bits. -/
def wideSize : Nat := UInt64.size * UInt64.size

/-- The integer a scalar is, when 128 bits hold it. -/
def integer? (s : List Char) : Option Resolved :=
  match natural? s with
  | some n =>
    if n < UInt64.size then some (.natural n) else if n < wideSize then some .wide else none
  | none =>
    match negative? s with
    | some 0 => some (.natural 0)
    | some n =>
      if n ≤ UInt64.size / 2 then some (.negative n)
      else if n ≤ wideSize / 2 then some .wide
      else none
    | none => none

/-- The decimal a scalar is: a finite literal, or a spelling of infinity or not-a-number. -/
def decimal? (s : List Char) : Option Resolved :=
  if isSigned (unplussed s) && s.head? == some '+' then none
  else if [".inf", ".Inf", ".INF"].any (·.toList == unplussed s) ||
      ["-.inf", "-.Inf", "-.INF", ".nan", ".NaN", ".NAN"].any (·.toList == s) then
    some .nonFinite
  else
    ((literal? (unplussed s)).filter Literal.isFinite).map .decimal

/-- The meaning of a plain scalar. -/
def resolve (s : List Char) : Resolved :=
  if s.isEmpty || isNull s then .null
  else
    match bool? s with
    | some b => .bool b
    | none =>
      match integer? s with
      | some r => r
      | none =>
        if hasLeadingZero s then .text else (decimal? s).getD .text

/-- Whether a plain scalar is a string. -/
def Resolved.isText : Resolved → Bool
  | .text => true
  | _ => false

end Pipework.Yaml
