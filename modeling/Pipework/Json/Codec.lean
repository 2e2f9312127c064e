import Pipework.Json.Read

/-!
# One description, three uses

A codec says how the values of a type are written as JSON, how they come back from a JSON value, and
how they are read from text without building the value first.  The last two differ: reading a text
stops at the first fault and knows its place, and it notices a field that is given twice.
-/

namespace Pipework.Json

/-- How a type is written as JSON and read back. -/
structure Codec (α : Type) where
  encode : α → Json
  decode : Json → Except Cause α
  /-- Reads text from a cursor, with the number of levels that the value may have. -/
  read : Nat → Cursor → Except Error (α × Cursor)

namespace Codec

/-- The value that a text describes. -/
def ofText {α : Type} (c : Codec α) (text : String) : Except Error α := do
  let (x, rest) ← c.read depthLimit (Cursor.start text.toList)
  readEnd rest
  pure x

/-- The value that a JSON value describes. -/
def ofJson {α : Type} (c : Codec α) (v : Json) : Except Error α :=
  match c.decode v with
  | .ok x => .ok x
  | .error cause => .error ⟨cause, none⟩

/-! ## Values of another type than the expected one -/

/-- A value of the wrong type. -/
def mistaken {α : Type} (v : Json) (expected : String) : Except Cause α :=
  .error (.wrongType (found v) expected)

/-- What is next in the text is not what was expected.  A scalar is read first, and a list or an
object only looked at. -/
def mistakenText {α : Type} (c : Cursor) (expected : String) : Except Error α :=
  let wrong (f : Found) (c : Cursor) : Except Error α := .error (c.fails (.wrongType f expected))
  match c.rest with
  | [] => .error (c.fails .endInValue)
  | 'n' :: rest => do wrong .null (← readWord "ull".toList ⟨c.place.after 'n', rest⟩)
  | 't' :: rest => do wrong (.bool true) (← readWord "rue".toList ⟨c.place.after 't', rest⟩)
  | 'f' :: rest => do wrong (.bool false) (← readWord "alse".toList ⟨c.place.after 'f', rest⟩)
  | '"' :: rest => do
    let (s, c) ← readString ⟨c.place.after '"', rest⟩
    wrong (.string s) c
  | '[' :: _ => wrong .list c
  | '\x7b' :: _ => wrong .object c
  | x :: _ =>
    if x == '-' || x.isDigit then do
      let (n, c) ← readNumber c
      wrong (.number n) c
    else .error (c.refuses .expectedValue)

/-! ## Scalars -/

/-- Booleans. -/
def bool : Codec Bool where
  encode b := .bool b
  decode
    | .bool b => .ok b
    | v => mistaken v "a boolean"
  read _ c :=
    let c := c.skip
    match c.rest with
    | 't' :: rest => do pure (true, ← readWord "rue".toList ⟨c.place.after 't', rest⟩)
    | 'f' :: rest => do pure (false, ← readWord "alse".toList ⟨c.place.after 'f', rest⟩)
    | _ => mistakenText c "a boolean"

/-- Strings. -/
def string : Codec String where
  encode s := .string s
  decode
    | .string s => .ok s
    | v => mistaken v "a string"
  read _ c :=
    let c := c.skip
    match c.rest with
    | '"' :: rest => readString ⟨c.place.after '"', rest⟩
    | _ => mistakenText c "a string"

/-- The integer that a number is, if it is at least zero and below a bound. -/
def natural? (name : String) (bound : Nat) : Number → Except Cause Nat
  | .natural n =>
    if n < bound then .ok n else .error (.wrongValue (.number (.natural n)) name)
  | .negative n => .error (.wrongValue (.number (.negative n)) name)
  | .decimal x => .error (.wrongType (.number (.decimal x)) name)

/-- The integers from zero that are below a bound, under the name that reports give them. -/
def natural (name : String) (bound : Nat) : Codec Nat where
  encode n := .number (.natural n)
  decode
    | .number n => natural? name bound n
    | v => mistaken v name
  read _ c := do
    let c := c.skip
    match c.rest with
    | x :: _ =>
      if x == '-' || x.isDigit then
        let (n, c) ← readNumber c
        match natural? name bound n with
        | .ok n => pure (n, c)
        | .error cause => .error (c.fails cause)
      else mistakenText c name
    | [] => mistakenText c name

/-- Values with a text of their own.  Reports say that `expected` was expected. -/
def text {α : Type} (expected : String) (write : α → String) (parse : String → Except Cause α) :
    Codec α where
  encode x := .string (write x)
  decode
    | .string s => parse s
    | v => mistaken v expected
  read _ c := do
    let c := c.skip
    match c.rest with
    | '"' :: rest =>
      let (s, c) ← readString ⟨c.place.after '"', rest⟩
      match parse s with
      | .ok x => pure (x, c)
      | .error cause => .error (c.fails cause)
    | _ => mistakenText c expected

/-- The same values in another type. -/
def map {α β : Type} (c : Codec α) (forth : α → β) (back : β → α) : Codec β where
  encode x := c.encode (back x)
  decode v := (c.decode v).map forth
  read depth cur := (c.read depth cur).map fun (x, cur) => (forth x, cur)

/-- A value or `null`. -/
def option {α : Type} (c : Codec α) : Codec (Option α) where
  encode
    | none => .null
    | some x => c.encode x
  decode
    | .null => .ok none
    | v => (c.decode v).map some
  read depth cur :=
    let cur := cur.skip
    match cur.rest with
    | 'n' :: rest => do pure (none, ← readWord "ull".toList ⟨cur.place.after 'n', rest⟩)
    | _ => (c.read depth cur).map fun (x, cur) => (some x, cur)

/-! ## Choices -/

/-- The value with a name. -/
def chosen {α : Type} (variants : List (String × α)) (name : String) : Except Cause α :=
  match variants.lookup name with
  | some x => .ok x
  | none => .error (.unknownVariant name (variants.map (·.1)))

/-- One of several named values: its name, or an object whose only field has that name and is
`null`. -/
def choice {α : Type} (variants : List (String × α)) (name : α → String) : Codec α where
  encode x := .string (name x)
  decode
    | .string s => chosen variants s
    | .object [(s, v)] => do
      let x ← chosen variants s
      match v with
      | .null => .ok x
      | v => mistaken v "unit"
    | .object _ => .error (.wrongValue .object "map with a single key")
    | v => mistaken v "string or map"
  read depth c := do
    let variant (expected : String) (c : Cursor) : Except Error (α × Cursor) :=
      (text expected name (chosen variants)).read depth c
    let c := c.skip
    match c.rest with
    | '"' :: _ => variant "" c
    | '\x7b' :: rest =>
      let _ ← deeper depth c
      let (x, c) ← variant "variant identifier" ⟨c.place.after '\x7b', rest⟩
      let c := (← readColon c).skip
      let c ←
        match c.rest with
        | 'n' :: rest => readWord "ull".toList ⟨c.place.after 'n', rest⟩
        | _ => mistakenText c "unit"
      let c := c.skip
      match c.rest with
      | [] => .error (c.fails .endInObject)
      | '\x7d' :: rest => pure (x, ⟨c.place.after '\x7d', rest⟩)
      | _ => .error (c.fails .expectedValue)
    | [] => .error (c.fails .endInValue)
    | _ => .error (c.refuses .expectedValue)

/-! ## Lists and tables -/

/-- Lists. -/
def list {α : Type} (c : Codec α) : Codec (List α) where
  encode xs := .list (xs.map c.encode)
  decode
    | .list items => items.mapM c.decode
    | v => mistaken v "a sequence"
  read depth cur := do
    let cur := cur.skip
    match cur.rest with
    | '[' :: rest =>
      let depth ← deeper depth cur
      let inside : Cursor := ⟨cur.place.after '[', rest⟩
      readItems (c.read depth) inside.fuel true inside
    | _ => mistakenText cur "a sequence"

/-- Objects with any names, collected entry by entry. -/
def table {α σ : Type} (c : Codec α) (start : σ) (insert : σ → String → α → σ)
    (entries : σ → List (String × α)) : Codec σ where
  encode s := .object ((entries s).map fun (name, x) => (name, c.encode x))
  decode
    | .object fields =>
      fields.foldlM (fun s (name, v) => do pure (insert s name (← c.decode v))) start
    | v => mistaken v "a map"
  read depth cur := do
    let cur := cur.skip
    match cur.rest with
    | '\x7b' :: rest =>
      let depth ← deeper depth cur
      let inside : Cursor := ⟨cur.place.after '\x7b', rest⟩
      let member (s : σ) (name : String) (cur : Cursor) : Except Error (σ × Cursor) := do
        let (x, cur) ← c.read depth (← readColon cur)
        pure (insert s name x, cur)
      readMembers member inside.fuel true start inside
    | _ => mistakenText cur "a map"

/-! ## Records -/

/-- One field of a record type. -/
structure Field (σ : Type) where
  name : String
  /-- Whether the field must be given. -/
  required : Bool
  /-- The field's value, or none where the field is left out. -/
  write : σ → Option Json
  decode : Json → Except Cause (σ → σ)
  read : Nat → Cursor → Except Error ((σ → σ) × Cursor)

/-- A field that keeps its default if it is not given. -/
def field {σ α : Type} (name : String) (c : Codec α) (get : σ → α) (set : α → σ → σ) : Field σ where
  name := name
  required := false
  write s := some (c.encode (get s))
  decode v := (c.decode v).map set
  read depth cur := (c.read depth cur).map fun (x, cur) => (set x, cur)

/-- The field, left out of some records. -/
def Field.omitIf {σ : Type} (f : Field σ) (skip : σ → Bool) : Field σ :=
  { f with write := fun s => if skip s then none else f.write s }

/-- A field that must be given. -/
def Field.needed {σ : Type} (f : Field σ) : Field σ := { f with required := true }

/-- What reports call a record type. -/
structure RecordName where
  /-- Where a value of another type is found. -/
  plain : String
  /-- Where a list is too short. -/
  sized : String

/-- The first field that must be given and is not among those seen. -/
def checkGiven {σ : Type} (fields : List (Field σ)) (seen : List String) : Except Cause Unit :=
  match fields.find? fun f => f.required && !seen.contains f.name with
  | some f => .error (.missingField f.name)
  | none => .ok ()

/-- The fields of an object put into a record.  The object's other fields are ignored. -/
def decodeFields {σ : Type} (fields : List (Field σ)) (s : σ) :
    List (String × Json) → Except Cause σ
  | [] => .ok s
  | (name, v) :: rest =>
    match fields.find? (·.name == name) with
    | some f => do decodeFields fields ((← f.decode v) s) rest
    | none => decodeFields fields s rest

/-- The items of a list put into a record, field by field. -/
def decodeItems {σ : Type} (sized : String) (count : Nat) :
    List (Field σ) → σ → List Json → Except Cause σ
  | [], s, [] => .ok s
  | [], _, _ :: rest => .error (.wrongLength (count + rest.length + 1) "fewer elements in array")
  | f :: fields, s, [] =>
    if f.required then .error (.wrongLength count sized)
    else decodeItems sized (count + 1) fields s []
  | f :: fields, s, v :: rest => do decodeItems sized (count + 1) fields ((← f.decode v) s) rest

/-- The end of a list whose items have all been read. -/
def readListEnd (c : Cursor) : Except Error Cursor :=
  let c := c.skip
  match c.rest with
  | [] => .error (c.fails .endInList)
  | ']' :: rest => .ok ⟨c.place.after ']', rest⟩
  | ',' :: rest =>
    let c := (⟨c.place.after ',', rest⟩ : Cursor).skip
    match c.rest with
    | ']' :: _ => .error (c.refuses .trailingComma)
    | _ => .error (c.refuses .trailingText)
  | _ => .error (c.refuses .trailingText)

/-- The items of a list in the text put into a record. -/
def readFields {σ : Type} (sized : String) (depth : Nat) :
    Nat → List (Field σ) → Bool → σ → Cursor → Except Error (σ × Cursor)
  | _, [], _, s, c => do pure (s, ← readListEnd c)
  | count, f :: fields, first, s, c => do
    match ← nextItem first c with
    | .ok c =>
      let (set, c) ← f.read depth c
      readFields sized depth (count + 1) fields false (set s) c
    | .error after =>
      match (f :: fields).findIdx? (·.required) with
      | some i => .error (after.fails (.wrongLength (count + i) sized))
      | none => pure (s, after)

/-- The place of a field that is given twice: where the text goes on after its name. -/
def repeated (name : String) (c : Cursor) : Error :=
  let c := c.skip
  match c.rest with
  | '\x7d' :: _ => c.refuses (.duplicateField name)
  | _ => c.fails (.duplicateField name)

/-- Records with named fields.  A list is read as the fields in their order. -/
def record {σ : Type} (name : RecordName) (start : σ) (fields : List (Field σ)) : Codec σ where
  encode s := .object (fields.filterMap fun f => (f.write s).map fun v => (f.name, v))
  decode
    | .object given => do
      let s ← decodeFields fields start given
      checkGiven fields (given.map (·.1))
      pure s
    | .list items => decodeItems name.sized 0 fields start items
    | v => mistaken v name.plain
  read depth c := do
    let c := c.skip
    match c.rest with
    | '[' :: rest =>
      let depth ← deeper depth c
      readFields name.sized depth 0 fields true start ⟨c.place.after '[', rest⟩
    | '\x7b' :: rest =>
      let depth ← deeper depth c
      let inside : Cursor := ⟨c.place.after '\x7b', rest⟩
      let member (s : σ × List String) (key : String) (c : Cursor) :
          Except Error ((σ × List String) × Cursor) :=
        match fields.find? (·.name == key) with
        | none => do
          let c ← readColon c
          pure (s, ← skipValue c.fuel c)
        | some f =>
          if s.2.contains key then .error (repeated key c)
          else do
            let (set, c) ← f.read depth (← readColon c)
            pure ((set s.1, key :: s.2), c)
      let ((s, seen), c) ← readMembers member inside.fuel true (start, []) inside
      match checkGiven fields seen with
      | .ok () => pure (s, c)
      | .error cause => .error (c.fails cause)
    | _ => mistakenText c name.plain

end Codec

end Pipework.Json
