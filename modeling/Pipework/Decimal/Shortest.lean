/-!
# Shortest decimals

The text of a binary floating-point number with the fewest digits that read back as that number.  A
finite number is `m · 2 ^ q`; every real nearer to it than to its neighbours rounds to it, and the
two midpoints do so exactly when `m` is even.  `shortest` looks for a point of a decimal grid in
that interval, on the coarsest grid first.  A `Style` then says how digits and exponent are written.
-/

namespace Pipework

/-- A non-negative decimal `digits · 10 ^ exponent`. -/
structure Decimal where
  digits : Nat
  exponent : Int
deriving Repr, DecidableEq

namespace Decimal

/-- The number of fractions of a float, which has 52 bits for them. -/
def fractionSize : Nat := Nat.pow 2 52

/-- The exponent of a float as it stands among its bits, of which it has 11. -/
def exponentField (bits : Nat) : Nat := bits / fractionSize % Nat.pow 2 11

/-- The significand and binary exponent of a finite float, from its bits without the sign. -/
def binaryParts (bits : Nat) : Nat × Int :=
  let fraction := bits % fractionSize
  match exponentField bits with
  | 0 => (fraction, -1074)
  | field => (fraction + fractionSize, (field : Int) - 1075)

/-- Four times the half-gap below the significand: the gap is halved below a power of two. -/
def gapBelow (bits : Nat) : Nat :=
  if bits % fractionSize == 0 && 1 < exponentField bits then 1 else 2

/-- `a · 2 ^ x` against `b · 10 ^ y`, both brought to whole numbers. -/
def scaled (a : Nat) (x : Int) (b : Nat) (y : Int) : Nat × Nat :=
  (a * Nat.pow 2 x.toNat * Nat.pow 10 (-y).toNat, b * Nat.pow 2 (-x).toNat * Nat.pow 10 y.toNat)

/-- Whether `n · 10 ^ i` rounds to the float with these bits. -/
def roundsTo (bits n : Nat) (i : Int) : Bool :=
  let (m, q) := binaryParts bits
  let (low, at₁) := scaled (4 * m - gapBelow bits) (q - 2) n i
  let (high, at₂) := scaled (4 * m + 2) (q - 2) n i
  if m % 2 == 0 then low ≤ at₁ && at₂ ≤ high else low < at₁ && at₂ < high

/-- The point of the grid `10 ^ i` nearest to the float among its two neighbours there that round to
it. -/
def onGrid? (bits : Nat) (i : Int) : Option Nat :=
  let (m, q) := binaryParts bits
  let (value, unit) := scaled m q 1 i
  let n := value / unit
  let below := roundsTo bits n i
  let above := roundsTo bits (n + 1) i
  let nearerBelow := 2 * (value % unit) < unit || (2 * (value % unit) == unit && n % 2 == 0)
  if below && (nearerBelow || !above) then some n
  else if above then some (n + 1)
  else none

/-- The first grid that holds a hit, from `10 ^ i` down through `steps` finer ones. -/
def searchGrids (bits : Nat) (i : Int) : Nat → Option Decimal
  | 0 => none
  | steps + 1 =>
    match onGrid? bits i with
    | some n => if n == 0 then searchGrids bits (i - 1) steps else some ⟨n, i⟩
    | none => searchGrids bits (i - 1) steps

/-- The decimal without trailing zeros. -/
def strip (d : Decimal) : Decimal :=
  let rec go : Nat → Decimal → Decimal
    | 0, d => d
    | fuel + 1, d =>
      if d.digits != 0 && d.digits % 10 == 0 then go fuel ⟨d.digits / 10, d.exponent + 1⟩ else d
  go 20 d

/-- The shortest decimal that reads back as the positive finite float with these bits. -/
def shortest (bits : Nat) : Decimal :=
  let (m, q) := binaryParts bits
  let magnitude : Int := (((m.log2 : Int) + q) * 30103).fdiv 100000
  ((searchGrids bits (magnitude + 1) 20).getD ⟨0, 0⟩).strip

/-- How decimals are written. -/
structure Style where
  /-- The decimal exponents of the first digit that are written out in positions. -/
  least : Int
  greatest : Int
  /-- The sign in front of a non-negative exponent. -/
  plus : List Char

/-- Positions from `10 ^ -5` up to `10 ^ 15`, exponents with their sign otherwise. -/
def plain : Style := ⟨-5, 15, ['+']⟩

/-- The text of a decimal in a style. -/
def Style.write (style : Style) (d : Decimal) : List Char :=
  let ds := (toString d.digits).toList
  let first : Int := d.exponent + (ds.length : Int) - 1
  if style.least ≤ first && first ≤ style.greatest then
    if first < 0 then
      '0' :: '.' :: List.replicate (-first - 1).toNat '0' ++ ds
    else if 0 ≤ d.exponent then
      ds ++ List.replicate d.exponent.toNat '0' ++ ['.', '0']
    else
      ds.take (first.toNat + 1) ++ '.' :: ds.drop (first.toNat + 1)
  else
    let mantissa :=
      match ds with
      | [d] => [d]
      | d :: more => d :: '.' :: more
      | [] => []
    let sign := if first < 0 then ['-'] else style.plus
    mantissa ++ 'e' :: sign ++ (toString first.natAbs).toList

/-- The text of a finite float. -/
def floatText (x : Float) : List Char :=
  let bits := x.toBits.toNat
  let signBit := UInt64.size / 2
  let sign := if bits / signBit == 1 then ['-'] else []
  let magnitude := bits % signBit
  sign ++ if magnitude == 0 then ['0', '.', '0'] else plain.write (shortest magnitude)

end Decimal

end Pipework
