import Pipework.Text.Bytes
import Pipework.Text.Space
import Pipework.Time.Calendar

/-!
# Points in time

Points in time in universal time, to the nanosecond, and their text: date, time and offset.  A leap
second is the second after the fifty-ninth of its minute.  When a text is read, blanks are allowed
between its parts.
-/

namespace Pipework.Time

/-- A point in time. -/
structure Instant where
  /-- The seconds since the beginning of 1970, without leap seconds. -/
  second : Int
  /-- The nanoseconds in that second, and 10⁹ more in a leap second. -/
  nano : Nat
deriving Repr, DecidableEq, Inhabited

/-- Why a text is no point in time. -/
inductive Fault where
  | outOfRange
  | impossible
  | invalid
  | tooShort
  | tooLong
deriving Repr, DecidableEq

/-- The wording of a fault. -/
def Fault.message : Fault → String
  | outOfRange => "input is out of range"
  | impossible => "no possible date and time matching input"
  | invalid => "input contains invalid characters"
  | tooShort => "premature end of input"
  | tooLong => "trailing input"

/-- The nanoseconds of a second. -/
def nanosPerSecond : Nat := 1000000000

/-- The seconds of a day. -/
def secondsPerDay : Nat := 86400

/-! ## Writing -/

/-- A number with at least `width` digits. -/
def padded (width n : Nat) : List Char :=
  let ds := (toString n).toList
  List.replicate (width - ds.length) '0' ++ ds

/-- A year; one that four digits cannot tell has a sign. -/
def yearText (year : Int) : List Char :=
  if 0 ≤ year && year ≤ 9999 then padded 4 year.toNat
  else (if year < 0 then '-' else '+') :: padded 4 year.natAbs

/-- The fraction of a second with three, six or nine digits, or none if it is zero. -/
def fractionText (nano : Nat) : List Char :=
  if nano = 0 then []
  else if nano % 1000000 = 0 then '.' :: padded 3 (nano / 1000000)
  else if nano % 1000 = 0 then '.' :: padded 6 (nano / 1000)
  else '.' :: padded 9 nano

namespace Instant

/-- The text of a point in time, with the fraction of its second or without. -/
def write (withFraction : Bool) (t : Instant) : List Char :=
  let date := Date.ofNumber (t.second / secondsPerDay)
  let seconds := (t.second % secondsPerDay).toNat
  let second := seconds % 60 + t.nano / nanosPerSecond
  yearText date.year ++ '-' :: padded 2 date.month ++ '-' :: padded 2 date.day ++
    'T' :: padded 2 (seconds / 3600) ++ ':' :: padded 2 (seconds / 60 % 60) ++
    ':' :: padded 2 second ++
    (if withFraction then fractionText (t.nano % nanosPerSecond) else []) ++ ['Z']

/-- The text of a point in time. -/
def text (t : Instant) : String := String.ofList (t.write true)

/-- The text of a point in time to the second. -/
def textToSecond (t : Instant) : String := String.ofList (t.write false)

end Instant

/-! ## Reading -/

/-- The value of digits. -/
def digitsValue (ds : List Char) : Nat :=
  ds.foldl (fun n d => n * 10 + (d.toNat - '0'.toNat)) 0

/-- A number of at most `width` digits, and the rest. -/
def readNumber (width : Nat) (s : List Char) : Except Fault (Nat × List Char) :=
  let ds := (s.take width).takeWhile Char.isDigit
  match s with
  | [] => .error .tooShort
  | _ =>
    if ds.isEmpty then .error .invalid
    else if digitsValue ds < UInt64.size / 2 then .ok (digitsValue ds, s.drop ds.length)
    else .error .outOfRange

/-- A number of two digits with blanks in front that lies between two bounds, and the rest. -/
def readPart (least greatest : Nat) (s : List Char) : Except Fault (Nat × List Char) := do
  let (n, s) ← readNumber 2 (Text.trimStart s)
  if least ≤ n && n ≤ greatest then pure (n, s) else .error .outOfRange

/-- Years are integers of 32 bits. -/
def yearBound : Int := Int.ofNat (UInt32.size / 2)

/-- A year: four digits, or any number of them after a sign; and the rest. -/
def readYear (s : List Char) : Except Fault (Int × List Char) := do
  let (year, s) ←
    match Text.trimStart s with
    | '-' :: s => do
      let (n, s) ← readNumber s.length s
      pure (-(n : Int), s)
    | '+' :: s => do
      let (n, s) ← readNumber s.length s
      pure ((n : Int), s)
    | s => do
      let (n, s) ← readNumber 4 s
      pure ((n : Int), s)
  if -yearBound ≤ year && year < yearBound then pure (year, s) else .error .outOfRange

/-- Past a character with blanks in front. -/
def readMark (c : Char) (s : List Char) : Except Fault (List Char) :=
  match Text.trimStart s with
  | [] => .error .tooShort
  | x :: rest => if x == c then .ok rest else .error .invalid

/-- The nanoseconds of a fraction if there is one, and the rest.  Digits after the ninth do not
count. -/
def readFraction : List Char → Except Fault (Nat × List Char)
  | '.' :: s => do
    let (n, rest) ← readNumber 9 s
    let places := s.length - rest.length
    pure (n * Nat.pow 10 (9 - places), rest.dropWhile Char.isDigit)
  | s => .ok (0, s)

/-- Two digits, the first at most five where `sixty` says so, and the rest. -/
def readPair (sixty : Bool) (s : List Char) : Except Fault (Nat × List Char) :=
  if Text.byteCount s < 2 then .error .tooShort
  else
    match s with
    | a :: b :: rest =>
      if a.isDigit && b.isDigit then
        if sixty && '6' ≤ a then .error .outOfRange else .ok (digitsValue [a, b], rest)
      else .error .invalid
    | _ => .error .invalid

/-- An offset from universal time in seconds, and the rest. -/
def readOffset (s : List Char) : Except Fault (Int × List Char) := do
  let signed (sign : Int) (s : List Char) : Except Fault (Int × List Char) := do
    let (hours, s) ← readPair false s
    let (minutes, s) ← readPair true (s.dropWhile fun c => c == ':' || Text.isSpace c)
    pure (sign * (hours * 3600 + minutes * 60 : Nat), s)
  match s with
  | [] => .error .tooShort
  | c :: rest =>
    if (s.take 3).map Char.toUpper == ['U', 'T', 'C'] then pure (0, s.drop 3)
    else if c == 'Z' || c == 'z' then pure (0, rest)
    else if c == '+' then signed 1 rest
    else if c == '-' || c == '\u2212' then signed (-1) rest
    else .error .invalid

/-- The years in which a point in time can lie. -/
def isYear (year : Int) : Bool := -262143 ≤ year && year ≤ 262142

namespace Instant

/-- The point in time that a text tells. -/
def ofText (text : String) : Except Fault Instant := do
  let (year, s) ← readYear text.toList
  let s ← readMark '-' s
  let (month, s) ← readPart 1 12 s
  let s ← readMark '-' s
  let (day, s) ← readPart 1 31 s
  let s ←
    match s with
    | [] => .error .tooShort
    | c :: rest => if c == 't' || c == 'T' || c == ' ' then pure rest else .error .invalid
  let (hour, s) ← readPart 0 23 s
  let s ← readMark ':' s
  let (minute, s) ← readPart 0 59 s
  let s ← readMark ':' s
  let (second, s) ← readPart 0 60 s
  let (nano, s) ← readFraction s
  let (offset, s) ← readOffset (Text.trimStart s)
  if !Text.isBlank s then .error .tooLong
  let date : Date := { year, month, day }
  if !(isYear year && date.isValid && offset.natAbs < secondsPerDay) then .error .outOfRange
  let seconds : Int :=
    date.number * secondsPerDay + (hour * 3600 + minute * 60 + min second 59 : Nat)
  let t : Instant :=
    { second := seconds - offset
      nano := if second = 60 then nanosPerSecond + nano else nano }
  if isYear (Date.ofNumber (t.second / secondsPerDay)).year then pure t else .error .impossible

end Instant

end Pipework.Time
