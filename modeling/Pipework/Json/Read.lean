import Pipework.Json.Error
import Pipework.Text.Bytes

/-!
# Reading JSON text

A cursor is a place in a text with what remains from there.  Values are read strictly, with a limit
on their nesting; a value that nobody asked for is skipped instead, which checks less: neither the
depth of its nesting, nor the size of its numbers, nor the surrogates in its strings.  Both report
the place of the first character that cannot be part of a value.
-/

namespace Pipework.Json

/-- A place in a text and the rest of the text. -/
structure Cursor where
  place : Place
  rest : List Char

/-- The cursor at the start of a text. -/
def Cursor.start (text : List Char) : Cursor := ⟨Place.start, text⟩

namespace Cursor

/-- White space between the parts of a value. -/
def isBlank (c : Char) : Bool := c == ' ' || c == '\n' || c == '\t' || c == '\r'

/-- Past the white space. -/
def skipFrom (p : Place) : List Char → Cursor
  | [] => ⟨p, []⟩
  | c :: rest => if isBlank c then skipFrom (p.after c) rest else ⟨p, c :: rest⟩

/-- Past the white space. -/
def skip (c : Cursor) : Cursor := skipFrom c.place c.rest

/-- An error at the cursor. -/
def fails (c : Cursor) (cause : Cause) : Error := ⟨cause, some c.place⟩

/-- An error at the next byte, which is reported as the place after it. -/
def refuses (c : Cursor) (cause : Cause) : Error := ⟨cause, some (c.place.afterByte c.rest)⟩

/-- Past a run of characters of one kind on one line. -/
def skipRun (c : Cursor) (p : Char → Bool) : Cursor :=
  let run := c.rest.takeWhile p
  ⟨⟨c.place.line, c.place.column + run.length⟩, c.rest.dropWhile p⟩

end Cursor

/-! ## Words -/

/-- The rest of a word such as `null`. -/
def readWord : List Char → Cursor → Except Error Cursor
  | [], c => .ok c
  | w :: word, c =>
    match c.rest with
    | [] => .error (c.fails .endInValue)
    | x :: rest =>
      if x == w then readWord word ⟨c.place.after x, rest⟩ else .error (c.refuses .expectedWord)

/-! ## Strings -/

/-- The parts of a string as it is written. -/
inductive Mark where
  | plain (c : Char)
  | escaped (c : Char)
  /-- An escape by a number of 16 bits, perhaps half of a surrogate pair. -/
  | code (n : Nat)

/-- A part of a string, the place after its first byte, or after an escape, and the place
after it. -/
structure Piece where
  mark : Mark
  cut : Place
  stop : Place

/-- Why a string does not end: the cause, its place, its place when the string is skipped, and the
cause when the first half of a surrogate pair stands right before. -/
structure StringFault where
  cause : Cause
  place : Place
  skipPlace : Place
  afterHalf : Cause

/-- A fault whose place does not depend on how the string is read. -/
def StringFault.plain (cause : Cause) (place : Place) (afterHalf : Cause) : StringFault :=
  ⟨cause, place, place, afterHalf⟩

/-- The character that a backslash and a letter stand for. -/
def unescape? : Char → Option Char
  | '"' => some '"'
  | '\\' => some '\\'
  | '/' => some '/'
  | 'b' => some '\x08'
  | 'f' => some '\x0c'
  | 'n' => some '\n'
  | 'r' => some '\r'
  | 't' => some '\t'
  | _ => none

/-- The value of a hexadecimal digit. -/
def hexValue? (c : Char) : Option Nat :=
  if c.isDigit then some (c.toNat - '0'.toNat)
  else if 'a' ≤ c && c ≤ 'f' then some (c.toNat - 'a'.toNat + 10)
  else if 'A' ≤ c && c ≤ 'F' then some (c.toNat - 'A'.toNat + 10)
  else none

/-- The number that four hexadecimal digits denote. -/
def hex4? (a b c d : Char) : Option Nat := do
  let a ← hexValue? a
  let b ← hexValue? b
  let c ← hexValue? c
  let d ← hexValue? d
  pure (((a * 16 + b) * 16 + c) * 16 + d)

/-- The fault of an escape by number whose digits would be next. -/
def hexFault (p : Place) (rest : List Char) : StringFault :=
  if Text.byteCount rest < 4 then
    .plain .endInString (rest.foldl Place.after p) .endInString
  else
    .plain .invalidEscape (p.afterBytes 4 rest) .invalidEscape

/-- The parts of a string up to its closing quote, then the cursor after the quote. -/
def pieces (p : Place) : List Char → List Piece × Except StringFault Cursor
  | [] => ([], .error (.plain .endInString p .endInString))
  | '"' :: rest => ([], .ok ⟨p.after '"', rest⟩)
  | '\\' :: rest =>
    let q := p.after '\\'
    match rest with
    | [] => ([], .error (.plain .endInString q .endInString))
    | 'u' :: more =>
      let q := q.after 'u'
      match more with
      | a :: b :: c :: d :: rest =>
        match hex4? a b c d with
        | some n =>
          let stop := ⟨q.line, q.column + 4⟩
          let (parts, ending) := pieces stop rest
          (⟨.code n, stop, stop⟩ :: parts, ending)
        | none => ([], .error (hexFault q (a :: b :: c :: d :: rest)))
      | _ => ([], .error (hexFault q more))
    | e :: more =>
      match unescape? e with
      | some c =>
        let stop := q.after e
        let (parts, ending) := pieces stop more
        (⟨.escaped c, stop, stop⟩ :: parts, ending)
      | none =>
        ([], .error (.plain .invalidEscape (q.afterByte (e :: more)) .unfinishedSurrogate))
  | c :: rest =>
    if c.toNat < 0x20 then
      ([], .error ⟨.controlCharacter, p.after c, p, .unfinishedSurrogate⟩)
    else
      let (parts, ending) := pieces (p.after c) rest
      (⟨.plain c, p.afterByte (c :: rest), p.after c⟩ :: parts, ending)

/-- Whether a number is the second half of a surrogate pair. -/
def isSecondHalf (n : Nat) : Bool := 0xDC00 ≤ n && n ≤ 0xDFFF

/-- Whether a number is the first half of a surrogate pair. -/
def isFirstHalf (n : Nat) : Bool := 0xD800 ≤ n && n ≤ 0xDBFF

/-- The characters of a string from its parts; `ending` is the error when the string ends on the
first half of a surrogate pair. -/
def joinPieces (ending : Error) : List Piece → Except Error (List Char)
  | [] => .ok []
  | ⟨.plain c, _, _⟩ :: rest => (joinPieces ending rest).map (c :: ·)
  | ⟨.escaped c, _, _⟩ :: rest => (joinPieces ending rest).map (c :: ·)
  | ⟨.code n, _, stop⟩ :: rest =>
    if isSecondHalf n then .error ⟨.loneSurrogate, some stop⟩
    else if isFirstHalf n then
      match rest with
      | [] => .error ending
      | ⟨.code m, _, stop⟩ :: rest =>
        if isSecondHalf m then
          (joinPieces ending rest).map
            (Char.ofNat (0x10000 + (n - 0xD800) * 0x400 + (m - 0xDC00)) :: ·)
        else .error ⟨.loneSurrogate, some stop⟩
      | ⟨_, cut, _⟩ :: _ => .error ⟨.unfinishedSurrogate, some cut⟩
    else (joinPieces ending rest).map (Char.ofNat n :: ·)

/-- A string after its opening quote. -/
def readString (c : Cursor) : Except Error (String × Cursor) :=
  match pieces c.place c.rest with
  | (parts, .ok after) => do
    let s ← joinPieces (after.fails .unfinishedSurrogate) parts
    pure (String.ofList s, after)
  | (parts, .error fault) => do
    let _ ← joinPieces ⟨fault.afterHalf, some fault.place⟩ parts
    .error ⟨fault.cause, some fault.place⟩

/-- Past a string after its opening quote. -/
def skipString (c : Cursor) : Except Error Cursor :=
  match (pieces c.place c.rest).2 with
  | .ok after => .ok after
  | .error fault => .error ⟨fault.cause, some fault.skipPlace⟩

/-! ## Numbers -/

/-- A number as it is written. -/
structure Numeral where
  negative : Bool
  whole : List Char
  /-- The digits after the point. -/
  fraction : Option (List Char)
  /-- The place of the exponent's first digit, whether it is negative, and its digits. -/
  exponent : Option (Place × Bool × List Char)

/-- Whether a numeral is an integer. -/
def Numeral.isInteger (n : Numeral) : Bool := n.fraction.isNone && n.exponent.isNone

/-- The cause at the end of the text inside a number: it is the number's fault only when it is
skipped. -/
def endOfNumber (skipping : Bool) : Cause := if skipping then .invalidNumber else .endInValue

/-- The digits before the point. -/
def readWhole (skipping : Bool) (c : Cursor) : Except Error (List Char × Cursor) :=
  match c.rest with
  | [] => .error (c.fails (endOfNumber skipping))
  | '0' :: rest =>
    let after : Cursor := ⟨c.place.after '0', rest⟩
    if rest.head?.any Char.isDigit then .error (after.refuses .invalidNumber)
    else .ok (['0'], after)
  | d :: _ =>
    if d.isDigit then .ok (c.rest.takeWhile Char.isDigit, c.skipRun Char.isDigit)
    else .error (c.refuses .invalidNumber)

/-- The digits after the point, if there is one. -/
def readFraction (skipping : Bool) (c : Cursor) : Except Error (Option (List Char) × Cursor) :=
  match c.rest with
  | '.' :: rest =>
    let c : Cursor := ⟨c.place.after '.', rest⟩
    let digits := rest.takeWhile Char.isDigit
    if digits.isEmpty then
      .error (c.refuses (if rest.isEmpty then endOfNumber skipping else .invalidNumber))
    else .ok (some digits, c.skipRun Char.isDigit)
  | _ => .ok (none, c)

/-- The exponent, if there is one. -/
def readExponent (skipping : Bool) (c : Cursor) :
    Except Error (Option (Place × Bool × List Char) × Cursor) :=
  match c.rest with
  | e :: rest =>
    if e == 'e' || e == 'E' then
      let c : Cursor := ⟨c.place.after e, rest⟩
      let (negative, c) : Bool × Cursor :=
        match c.rest with
        | '-' :: rest => (true, ⟨c.place.after '-', rest⟩)
        | '+' :: rest => (false, ⟨c.place.after '+', rest⟩)
        | _ => (false, c)
      match c.rest with
      | [] => .error (c.fails (endOfNumber skipping))
      | d :: _ =>
        if d.isDigit then
          .ok (some (c.place, negative, c.rest.takeWhile Char.isDigit), c.skipRun Char.isDigit)
        else .error (c.refuses .invalidNumber)
    else .ok (none, c)
  | [] => .ok (none, c)

/-- A number as it is written, at its sign or first digit. -/
def readNumeral (skipping : Bool) (c : Cursor) : Except Error (Numeral × Cursor) := do
  let (negative, c) : Bool × Cursor :=
    match c.rest with
    | '-' :: rest => (true, ⟨c.place.after '-', rest⟩)
    | _ => (false, c)
  let (whole, c) ← readWhole skipping c
  let (fraction, c) ← readFraction skipping c
  let (exponent, c) ← readExponent skipping c
  pure (⟨negative, whole, fraction, exponent⟩, c)

/-- Digits added to a significand as long as 64 bits hold it, with the number of digits added. -/
def addDigits (significand count : Nat) : List Char → Nat × Nat
  | [] => (significand, count)
  | d :: rest =>
    let next := significand * 10 + (d.toNat - '0'.toNat)
    if next < UInt64.size then addDigits next (count + 1) rest else (significand, count)

/-- The value of an exponent's digits, or how many of them are too many for 31 bits. -/
def exponentValue (value count : Nat) : List Char → Except Nat Nat
  | [] => .ok value
  | d :: rest =>
    let next := value * 10 + (d.toNat - '0'.toNat)
    if next < UInt32.size / 2 then exponentValue next (count + 1) rest else .error (count + 1)

/-- A power of ten as a double. -/
def powerOfTen (n : Nat) : Float := Float.ofScientific 1 false n

/-- `significand · 10 ^ exponent` by one multiplication or division, or several where the power
itself is no double; none if it is infinite. -/
def scaleFloat (x : Float) (exponent : Int) : Nat → Option Float
  | 0 => some x
  | fuel + 1 =>
    if exponent.natAbs ≤ 308 then
      if 0 ≤ exponent then
        let y := x * powerOfTen exponent.natAbs
        if y.isInf then none else some y
      else some (x / powerOfTen exponent.natAbs)
    else if x == 0.0 then some x
    else if 0 ≤ exponent then none
    else scaleFloat (x / powerOfTen 308) (exponent + 308) fuel

/-- The value of a numeral that ends at the cursor. -/
def Numeral.value (n : Numeral) (c : Cursor) : Except Error Number :=
  let (significand, taken) := addDigits 0 0 n.whole
  let left := n.whole.length - taken
  if n.isInteger && left == 0 &&
      (!n.negative || (0 < significand && significand ≤ UInt64.size / 2)) then
    .ok (if n.negative then .negative significand else .natural significand)
  else
    let (significand, places) := addDigits significand 0 (n.fraction.getD [])
    let start : Int := (left : Int) - (places : Int)
    let finish (exponent : Int) : Except Error Number :=
      match scaleFloat significand.toUInt64.toFloat exponent 8 with
      | some x => .ok (.decimal (if n.negative then -x else x))
      | none => .error (c.fails .numberOutOfRange)
    match n.exponent with
    | none => finish start
    | some (place, negative, digits) =>
      match exponentValue 0 0 digits with
      | .ok e => finish (if negative then start - (e : Int) else start + (e : Int))
      | .error count =>
        if significand == 0 || negative then .ok (.decimal (if n.negative then -0.0 else 0.0))
        else .error ⟨.numberOutOfRange, some ⟨place.line, place.column + count⟩⟩

/-- A number, at its sign or first digit. -/
def readNumber (c : Cursor) : Except Error (Number × Cursor) := do
  let (n, after) ← readNumeral false c
  pure (← n.value after, after)

/-! ## The parts of lists and objects -/

/-- The next item of a list, if there is one: the cursor at its first character.  Without one, the
cursor after the closing bracket. -/
def nextItem (first : Bool) (c : Cursor) : Except Error (Except Cursor Cursor) :=
  let c := c.skip
  match c.rest with
  | [] => .error (c.fails .endInList)
  | ']' :: rest => .ok (.error ⟨c.place.after ']', rest⟩)
  | x :: rest =>
    if first then .ok (.ok c)
    else if x == ',' then
      let c := (⟨c.place.after ',', rest⟩ : Cursor).skip
      match c.rest with
      | [] => .error (c.fails .endInValue)
      | ']' :: _ => .error (c.refuses .trailingComma)
      | _ => .ok (.ok c)
    else .error (c.refuses .expectedListEnd)

/-- The items of a list after its opening bracket. -/
def readItems {α : Type} (item : Cursor → Except Error (α × Cursor)) :
    Nat → Bool → Cursor → Except Error (List α × Cursor)
  | 0, _, c => .error (c.fails .endInList)
  | fuel + 1, first, c => do
    match ← nextItem first c with
    | .error after => pure ([], after)
    | .ok c =>
      let (x, c) ← item c
      let (xs, c) ← readItems item fuel false c
      pure (x :: xs, c)

/-- The next key of an object, if there is one: the cursor after its opening quote.  Without one,
the cursor after the closing brace. -/
def nextKey (first : Bool) (c : Cursor) : Except Error (Except Cursor Cursor) :=
  let c := c.skip
  match c.rest with
  | [] => .error (c.fails .endInObject)
  | '\x7d' :: rest => .ok (.error ⟨c.place.after '\x7d', rest⟩)
  | x :: rest =>
    if first then
      if x == '"' then .ok (.ok ⟨c.place.after '"', rest⟩) else .error (c.refuses .keyNotString)
    else if x == ',' then
      let c := (⟨c.place.after ',', rest⟩ : Cursor).skip
      match c.rest with
      | [] => .error (c.fails .endInValue)
      | '"' :: rest => .ok (.ok ⟨c.place.after '"', rest⟩)
      | '\x7d' :: _ => .error (c.refuses .trailingComma)
      | _ => .error (c.refuses .keyNotString)
    else .error (c.refuses .expectedObjectEnd)

/-- The members of an object after its opening brace, each read by `member` from the cursor after
its key. -/
def readMembers {σ : Type} (member : σ → String → Cursor → Except Error (σ × Cursor)) :
    Nat → Bool → σ → Cursor → Except Error (σ × Cursor)
  | 0, _, _, c => .error (c.fails .endInObject)
  | fuel + 1, first, s, c => do
    match ← nextKey first c with
    | .error after => pure (s, after)
    | .ok c =>
      let (key, c) ← readString c
      let (s, c) ← member s key c
      readMembers member fuel false s c

/-- Past the colon after a key. -/
def readColon (c : Cursor) : Except Error Cursor :=
  let c := c.skip
  match c.rest with
  | [] => .error (c.fails .endInObject)
  | ':' :: rest => .ok ⟨c.place.after ':', rest⟩
  | _ => .error (c.refuses .expectedColon)

/-- More steps than the rest of the text has parts. -/
def Cursor.fuel (c : Cursor) : Nat := c.rest.length + 1

/-! ## Values -/

/-- The nesting that is too deep. -/
def depthLimit : Nat := 128

/-- Go one level deeper, at an opening bracket. -/
def deeper (depth : Nat) (c : Cursor) : Except Error Nat :=
  if depth ≤ 1 then .error (c.refuses .tooDeep) else .ok (depth - 1)

/-- A value, with the number of levels it may have. -/
def readValue : Nat → Nat → Cursor → Except Error (Json × Cursor)
  | 0, _, c => .error (c.fails .endInValue)
  | fuel + 1, depth, c => do
    let c := c.skip
    match c.rest with
    | [] => .error (c.fails .endInValue)
    | 'n' :: rest => pure (.null, ← readWord "ull".toList ⟨c.place.after 'n', rest⟩)
    | 't' :: rest => pure (.bool true, ← readWord "rue".toList ⟨c.place.after 't', rest⟩)
    | 'f' :: rest => pure (.bool false, ← readWord "alse".toList ⟨c.place.after 'f', rest⟩)
    | '"' :: rest =>
      let (s, c) ← readString ⟨c.place.after '"', rest⟩
      pure (.string s, c)
    | '[' :: rest =>
      let depth ← deeper depth c
      let inside : Cursor := ⟨c.place.after '[', rest⟩
      let (items, c) ← readItems (readValue fuel depth) inside.fuel true inside
      pure (.list items, c)
    | '\x7b' :: rest =>
      let depth ← deeper depth c
      let inside : Cursor := ⟨c.place.after '\x7b', rest⟩
      let member (fields : List (String × Json)) (key : String) (c : Cursor) :
          Except Error (List (String × Json) × Cursor) := do
        let (v, c) ← readValue fuel depth (← readColon c)
        pure (Named.insert key v fields, c)
      let (fields, c) ← readMembers member inside.fuel true [] inside
      pure (.object fields, c)
    | x :: _ =>
      if x == '-' || x.isDigit then
        let (n, c) ← readNumber c
        pure (.number n, c)
      else .error (c.refuses .expectedValue)

/-- Nothing but white space follows. -/
def readEnd (c : Cursor) : Except Error Unit :=
  let c := c.skip
  if c.rest.isEmpty then .ok () else .error (c.refuses .trailingText)

/-- The value that a text is. -/
def parse (text : String) : Except Error Json := do
  let c := Cursor.start text.toList
  let (v, c) ← readValue c.fuel depthLimit c
  readEnd c
  pure v

/-! ## Skipping values -/

/-- Past the items of a list after its opening bracket. -/
def skipItems (item : Cursor → Except Error Cursor) : Nat → Bool → Cursor → Except Error Cursor
  | 0, _, c => .error (c.fails .endInList)
  | fuel + 1, first, c =>
    let c := c.skip
    match c.rest with
    | [] => .error (c.fails .endInList)
    | ']' :: rest => .ok ⟨c.place.after ']', rest⟩
    | x :: rest =>
      if first then do skipItems item fuel false (← item c)
      else if x == ',' then do skipItems item fuel false (← item ⟨c.place.after ',', rest⟩)
      else .error (c.refuses .expectedListEnd)

/-- Past a key, its colon and its value. -/
def skipMember (value : Cursor → Except Error Cursor) (c : Cursor) : Except Error Cursor :=
  let c := c.skip
  match c.rest with
  | [] => .error (c.fails .endInObject)
  | '"' :: rest => do value (← readColon (← skipString ⟨c.place.after '"', rest⟩))
  | _ => .error (c.refuses .keyNotString)

/-- Past the members of an object after its opening brace. -/
def skipMembers (value : Cursor → Except Error Cursor) : Nat → Bool → Cursor → Except Error Cursor
  | 0, _, c => .error (c.fails .endInObject)
  | fuel + 1, first, c =>
    let c := c.skip
    match c.rest with
    | [] => .error (c.fails .endInObject)
    | '\x7d' :: rest => .ok ⟨c.place.after '\x7d', rest⟩
    | x :: rest =>
      if first then do skipMembers value fuel false (← skipMember value c)
      else if x == ',' then do
        skipMembers value fuel false (← skipMember value ⟨c.place.after ',', rest⟩)
      else .error (c.refuses .expectedObjectEnd)

/-- Past a value. -/
def skipValue : Nat → Cursor → Except Error Cursor
  | 0, c => .error (c.fails .endInValue)
  | fuel + 1, c =>
    let c := c.skip
    match c.rest with
    | [] => .error (c.fails .endInValue)
    | 'n' :: rest => readWord "ull".toList ⟨c.place.after 'n', rest⟩
    | 't' :: rest => readWord "rue".toList ⟨c.place.after 't', rest⟩
    | 'f' :: rest => readWord "alse".toList ⟨c.place.after 'f', rest⟩
    | '"' :: rest => skipString ⟨c.place.after '"', rest⟩
    | '[' :: rest =>
      let inside : Cursor := ⟨c.place.after '[', rest⟩
      skipItems (skipValue fuel) inside.fuel true inside
    | '\x7b' :: rest =>
      let inside : Cursor := ⟨c.place.after '\x7b', rest⟩
      skipMembers (skipValue fuel) inside.fuel true inside
    | x :: _ =>
      if x == '-' || x.isDigit then (readNumeral true c).map (·.2)
      else .error (c.refuses .expectedValue)

end Pipework.Json
