/-!
# Decimal literals

Signed decimals with an optional fraction and exponent, such as `-12.5e3`, and digits in a given
base.  A literal is kept exact; whether it lies within the range of a double is a comparison of
natural numbers.
-/

namespace Pipework.Decimal

/-- The value of a digit in some base up to sixteen. -/
def digitValue? (base : Nat) (c : Char) : Option Nat :=
  let value? :=
    if c.isDigit then some (c.toNat - '0'.toNat)
    else if 'a' ≤ c && c ≤ 'f' then some (c.toNat - 'a'.toNat + 10)
    else if 'A' ≤ c && c ≤ 'F' then some (c.toNat - 'A'.toNat + 10)
    else none
  value?.filter (· < base)

/-- The number that a non-empty run of digits denotes. -/
def digits? (base : Nat) (s : List Char) : Option Nat :=
  if s.isEmpty then none
  else s.foldlM (fun n c => (digitValue? base c).map (base * n + ·)) 0

/-- A signed decimal `± digits · 10 ^ exponent`. -/
structure Literal where
  negative : Bool
  digits : Nat
  exponent : Int
deriving Repr, DecidableEq

/-- The value of a run of decimal digits, zero for none. -/
def runValue (s : List Char) : Nat :=
  s.foldl (fun n c => 10 * n + (c.toNat - '0'.toNat)) 0

/-- An exponent after its `e`: an optional sign and at least one digit. -/
def exponent? (s : List Char) : Option Int :=
  let (negative, ds) :=
    match s with
    | '-' :: rest => (true, rest)
    | '+' :: rest => (false, rest)
    | _ => (false, s)
  (digits? 10 ds).map fun n => if negative then -(n : Int) else n

/-- The literal that a text is: a mantissa with at least one digit, then an optional exponent. -/
def literal? (s : List Char) : Option Literal :=
  let (negative, body) :=
    match s with
    | '-' :: rest => (true, rest)
    | '+' :: rest => (false, rest)
    | _ => (false, s)
  let whole := body.takeWhile Char.isDigit
  let afterWhole := body.dropWhile Char.isDigit
  let (fraction, rest) :=
    match afterWhole with
    | '.' :: more => (more.takeWhile Char.isDigit, more.dropWhile Char.isDigit)
    | _ => ([], afterWhole)
  if whole.isEmpty && fraction.isEmpty then none
  else
    let digits := runValue (whole ++ fraction)
    let shift : Int := -(fraction.length : Int)
    match rest with
    | [] => some ⟨negative, digits, shift⟩
    | e :: more =>
      if e == 'e' || e == 'E' then
        (exponent? more).map fun n => ⟨negative, digits, n + shift⟩
      else none

/-- The least whole number that rounds to infinity as a double. -/
def overflowBound : Nat := Nat.pow 2 1024 - Nat.pow 2 970

/-- One more than the decimal exponent of the literal's first digit. -/
def Literal.magnitude (x : Literal) : Int :=
  ((Nat.toDigits 10 x.digits).length : Int) + x.exponent

/-- Whether the literal rounds to a finite double. -/
def Literal.isFinite (x : Literal) : Bool :=
  x.digits == 0 || x.magnitude ≤ 308 ||
    (x.magnitude ≤ 309 &&
      x.digits * Nat.pow 10 x.exponent.toNat <
        overflowBound * Nat.pow 10 (-x.exponent).toNat)

/-- The double nearest to the literal. -/
def Literal.toFloat (x : Literal) : Float :=
  let size :=
    if x.digits == 0 || x.magnitude < -400 then 0.0
    else if 400 < x.magnitude then 1.0 / 0.0
    else Float.ofScientific x.digits (x.exponent < 0) x.exponent.natAbs
  if x.negative then -size else size

end Pipework.Decimal
