import SerialBridge.Json.Reader

/-! # Reading values out of documents

A decoder reads values of one type, either off the front of a text, where the
first fault in reading order counts, or out of a document in memory, whose
syntax is known to be good.  The two directions stand side by side in one
record, so that each type of the library says once what its documents look like.

A *record* is written as an object with its fields in any order, or as a list of
its fields in their own order; unknown fields are passed over.  A *choice* is
written as one of several names.
-/

namespace SerialBridge.Json

/-- How values of a type are read. -/
structure Decoder (α : Type) where
  /-- Reads a value off the front of a text with so many levels of nesting left. -/
  read : Nat → Reader α
  /-- Reads a value out of a document in memory. -/
  ofJson : Json → Except Error α

/-- What is wrong with the value at the front of a text when something else was
wanted: a fault inside a simple value comes first. -/
def mismatch (wanted : String) (cs : List Char) : Error :=
  match cs with
  | [] => .endInValue
  | '[' :: _ => .invalidType .sequence wanted
  | '\x7b' :: _ => .invalidType .map wanted
  | cs =>
    match readValue 0 cs with
    | .error e => e
    | .ok (doc, _) => .invalidType doc.found wanted

namespace Decoder

/-- Reads a whole text as one value. -/
def parse (d : Decoder α) (text : String) : Except Error α := do
  let (x, rest) ← d.read maxLevels text.toList
  if (skipSpace rest).isEmpty then .ok x else .error .trailingText

/-- Reads a value and applies a function to it. -/
def map (f : α → β) (d : Decoder α) : Decoder β where
  read levels cs := do
    let (x, cs) ← d.read levels cs
    .ok (f x, cs)
  ofJson doc := (d.ofJson doc).map f

/-- Reads a text and checks it; what a text stands for, or why it is refused, is
for the check to say. -/
def checkedString (wanted : String) (check : String → Except Error α) : Decoder α where
  read _ cs :=
    match skipSpace cs with
    | '"' :: rest => do
      let (s, rest) ← readString rest
      let x ← check s
      .ok (x, rest)
    | cs => .error (mismatch wanted cs)
  ofJson
    | .string s => check s
    | doc => .error (.invalidType doc.found wanted)

/-- Reads a text. -/
def string : Decoder String :=
  checkedString "a string" .ok

/-- Reads `null`, which says nothing. -/
def unit : Decoder Unit where
  read _ cs :=
    match skipSpace cs with
    | 'n' :: rest => do
      let rest ← readLiteral ['u', 'l', 'l'] rest
      .ok ((), rest)
    | cs => .error (mismatch "unit" cs)
  ofJson
    | .null => .ok ()
    | doc => .error (.invalidType doc.found "unit")

/-- Reads `null` as nothing and all else as a value. -/
def optional (d : Decoder α) : Decoder (Option α) where
  read levels cs :=
    match skipSpace cs with
    | 'n' :: rest => do
      let rest ← readLiteral ['u', 'l', 'l'] rest
      .ok (none, rest)
    | cs => do
      let (x, cs) ← d.read levels cs
      .ok (some x, cs)
  ofJson
    | .null => .ok none
    | doc => (d.ofJson doc).map some

/-- The natural number that a number stands for, if it is below a limit. -/
def checkNatural (limit : Nat) (wanted : String) : Number → Except Error Nat
  | .integer n =>
    if 0 ≤ n ∧ n < limit then .ok n.toNat
    else .error (.invalidValue (.number (.integer n)) wanted)
  | .real bits => .error (.invalidType (.number (.real bits)) wanted)

/-- Reads a natural number below a limit. -/
def natural (limit : Nat) (wanted : String) : Decoder Nat where
  read _ cs :=
    match skipSpace cs with
    | c :: rest =>
      if startsNumber c then do
        let (n, rest) ← readNumber (c :: rest)
        let n ← checkNatural limit wanted n
        .ok (n, rest)
      else .error (mismatch wanted (c :: rest))
    | [] => .error (mismatch wanted [])
  ofJson
    | .number n => checkNatural limit wanted n
    | doc => .error (.invalidType doc.found wanted)

/-- Reads a natural number of 32 bits. -/
def uint32 : Decoder UInt32 :=
  (natural UInt32.size "u32").map UInt32.ofNat

/-- Reads a natural number of 64 bits. -/
def uint64 : Decoder UInt64 :=
  (natural UInt64.size "u64").map UInt64.ofNat

/-- Reads a natural number of 64 bits that counts bytes. -/
def size : Decoder UInt64 :=
  (natural UInt64.size "usize").map UInt64.ofNat

/-- Reads a list. -/
def list (d : Decoder α) : Decoder (List α) where
  read levels cs :=
    match skipSpace cs, levels with
    | '[' :: _, 0 => .error .tooDeep
    | '[' :: rest, n + 1 => do
      let (xs, rest) ← readItems (d.read n) (rest.length + 1) true rest
      let rest ← closeList rest
      .ok (xs, rest)
    | cs, _ => .error (mismatch "a sequence" cs)
  ofJson
    | .array items => items.mapM d.ofJson
    | doc => .error (.invalidType doc.found "a sequence")

/-! ## Choices -/

/-- The alternative of a name. -/
def choose (options : List (String × α)) (name : String) : Except Error α :=
  match options.lookup name with
  | some x => .ok x
  | none => .error (.unknownVariant name (options.map Prod.fst))

/-- Reads the name of an alternative. -/
def identifier (options : List (String × α)) : Decoder α :=
  checkedString "variant identifier" (choose options)

/-- Reads an alternative: its bare name, or an object whose one field has its name
and says what the alternative carries.  `bare` gives the value of a bare name
and `carried` reads the value of a field. -/
def alternative (options : List (String × α)) (bare : α → Except Error β)
    (carried : α → Decoder β) : Decoder β where
  read levels cs :=
    match skipSpace cs, levels with
    | [], _ => .error .endInValue
    | '"' :: rest, _ => do
      let (x, rest) ← (identifier options).read levels ('"' :: rest)
      let y ← bare x
      .ok (y, rest)
    | '\x7b' :: _, 0 => .error .tooDeep
    | '\x7b' :: rest, n + 1 => do
      let (x, rest) ← (identifier options).read n rest
      let rest ← readColon rest
      let (y, rest) ← (carried x).read n rest
      match skipSpace rest with
      | [] => .error .endInObject
      | '\x7d' :: rest => .ok (y, rest)
      | _ :: _ => .error .expectedValue
    | _ :: _, _ => .error .expectedValue
  ofJson
    | .string s => do
      let x ← choose options s
      bare x
    | .object [(name, doc)] => do
      let x ← choose options name
      (carried x).ofJson doc
    | .object _ => .error (.invalidValue .map "map with a single key")
    | doc => .error (.invalidType doc.found "string or map")

/-- Reads an alternative that carries nothing. -/
def choice (options : List (String × α)) : Decoder α :=
  alternative options .ok fun x => unit.map fun _ => x

end Decoder

/-! ## Records -/

/-- What a field that is not there does. -/
inductive Absence where
  /-- It is missed. -/
  | refused
  /-- It leaves its default, in an object; in a list it is missed. -/
  | byName
  /-- It leaves its default. -/
  | allowed
  deriving DecidableEq, Repr

/-- A field of a record: its name, how its value changes the record, and what its
absence does. -/
structure Field (α : Type) where
  /-- The name in a document. -/
  name : String
  /-- Reads the value, as a change to the record. -/
  change : Decoder (α → α)
  /-- What happens without it. -/
  absence : Absence

/-- A field whose value is stored by a function. -/
def Field.of (name : String) (d : Decoder β) (set : β → α → α) (absence : Absence) :
    Field α where
  name := name
  change := d.map set
  absence := absence

/-- A type of records: what it is called in messages, the record before any field
is read, and its fields in their own order. -/
structure Record (α : Type) where
  /-- The name in messages. -/
  label : String
  /-- The record before any field is read. -/
  start : α
  /-- The fields. -/
  fields : List (Field α)

namespace Record

/-- How many fields, in words. -/
def count (n : Nat) (thing : String) : String :=
  toString n ++ " " ++ thing ++ (if n = 1 then "" else "s")

/-- What a list of the wrong length should have been. -/
def wantedList (r : Record α) : String :=
  r.label ++ " with " ++ count r.fields.length "element"

/-- The first field that is missed in an object with these names. -/
def checkPresent (seen : List String) : List (Field α) → Except Error Unit
  | [] => .ok ()
  | f :: fs =>
    if f.absence = .refused ∧ !seen.contains f.name then .error (.missingField f.name)
    else checkPresent seen fs

/-- Reads the fields of an object up to its end; `seen` are the known names so
far and `n` bounds the number of fields. -/
def readFields (r : Record α) (levels : Nat) : Nat → Bool → List String → α → Reader α
  | 0, _, _, _, _ => .error .expectedValue
  | n + 1, first, seen, x, cs => do
    match ← nextField first cs with
    | none => do
      checkPresent seen r.fields
      .ok (x, cs)
    | some cs =>
      let (name, cs) ← readString cs
      match r.fields.find? (·.name == name) with
      | none =>
        let cs ← readColon cs
        let cs ← skipValue cs
        readFields r levels n false seen x cs
      | some f =>
        if seen.contains name then .error (.duplicateField name)
        else
          let cs ← readColon cs
          let (change, cs) ← f.change.read levels cs
          readFields r levels n false (name :: seen) (change x) cs

/-- Reads the fields of a list in their own order; `index` counts those read. -/
def readList (r : Record α) (levels : Nat) : List (Field α) → Nat → α → Reader α
  | [], _, x, cs => .ok (x, cs)
  | f :: fs, index, x, cs => do
    match ← nextItem (index == 0) cs with
    | none =>
      if f.absence = .allowed then readListEnd r fs (index + 1) x cs
      else .error (.invalidLength index r.wantedList)
    | some cs =>
      let (change, cs) ← f.change.read levels cs
      readList r levels fs (index + 1) (change x) cs
where
  /-- The fields after the end of a list, none of which may be missed. -/
  readListEnd (r : Record α) : List (Field α) → Nat → α → Reader α
    | [], _, x, cs => .ok (x, cs)
    | f :: fs, index, x, cs =>
      if f.absence = .allowed then readListEnd r fs (index + 1) x cs
      else .error (.invalidLength index r.wantedList)

/-- Takes the fields of an object in memory. -/
def takeFields (r : Record α) : List String → α → List (String × Json) → Except Error α
  | seen, x, [] => do
    checkPresent seen r.fields
    .ok x
  | seen, x, (name, doc) :: rest =>
    match r.fields.find? (·.name == name) with
    | none => takeFields r seen x rest
    | some f =>
      if seen.contains name then .error (.duplicateField name)
      else do
        let change ← f.change.ofJson doc
        takeFields r (name :: seen) (change x) rest

/-- Takes the fields of a list in memory in their own order; `surplus` says what
is wrong with items beyond the last field. -/
def takeItems (r : Record α) (surplus : Error) : List (Field α) → Nat → α → List Json →
    Except Error α
  | [], _, x, [] => .ok x
  | [], _, _, _ :: _ => .error surplus
  | f :: fs, index, x, [] =>
    if f.absence = .allowed then takeItems r surplus fs (index + 1) x []
    else .error (.invalidLength index r.wantedList)
  | f :: fs, index, x, doc :: rest => do
    let change ← f.change.ofJson doc
    takeItems r surplus fs (index + 1) (change x) rest

/-- Reads a record. -/
def decoder (r : Record α) : Decoder α where
  read levels cs :=
    match skipSpace cs, levels with
    | '[' :: _, 0 => .error .tooDeep
    | '[' :: rest, n + 1 => do
      let (x, rest) ← readList r n r.fields 0 r.start rest
      let rest ← closeList rest
      .ok (x, rest)
    | '\x7b' :: _, 0 => .error .tooDeep
    | '\x7b' :: rest, n + 1 => do
      let (x, rest) ← readFields r n (rest.length + 1) true [] r.start rest
      let rest ← closeObject rest
      .ok (x, rest)
    | cs, _ => .error (mismatch r.label cs)
  ofJson
    | .object fields => takeFields r [] r.start fields
    | .array items =>
      takeItems r (.invalidLength items.length "fewer elements in array") r.fields 0 r.start items
    | doc => .error (.invalidType doc.found r.label)

end Record

end SerialBridge.Json
