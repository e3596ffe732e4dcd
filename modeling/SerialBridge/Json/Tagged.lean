import SerialBridge.Json.Decoder

/-! # Tagged alternatives

A type of alternatives can be written with the name of the alternative in a field
of its own, the *tag*.  With the tag *inside*, it stands among the fields of the
alternative; as the tag may come last, the other fields are first read as
documents.  With the tag *beside*, one further field holds what the alternative
carries; it is read where it stands if the tag came first.  Either form may also
be a list that begins with the tag.
-/

namespace SerialBridge.Json

/-- One alternative with its tag inside: the names its tag may have, and how its
fields are read, if it has any. -/
structure Variant (α : Type) where
  /-- The accepted tags. -/
  names : List String
  /-- The fields: either the value of an alternative without fields, or a record. -/
  body : α ⊕ Record α

namespace Variant

/-- Reads the alternative from its fields without the tag. -/
def ofFields (v : Variant α) (fields : List (String × Json)) : Except Error α :=
  match v.body with
  | .inl x => .ok x
  | .inr r => r.takeFields [] r.start fields

/-- Reads the alternative from the items after the tag. -/
def ofItems (v : Variant α) (items : List Json) : Except Error α :=
  match v.body with
  | .inl x =>
    if items.isEmpty then .ok x
    else .error (.invalidLength items.length (Record.count 0 "element" ++ " in sequence"))
  | .inr r =>
    let wanted := Record.count r.fields.length "element" ++ " in sequence"
    r.takeItems (.invalidLength items.length wanted) r.fields 0 r.start items

/-- The names of all tags with their alternatives. -/
def options (variants : List (Variant α)) : List (String × Variant α) :=
  variants.flatMap fun v => v.names.map (·, v)

end Variant

namespace Decoder

/-- The alternative that a tag in memory stands for: its name, or the number of the
alternative. -/
def tagOfJson (variants : List (Variant α)) : Json → Except Error (Variant α)
  | .string s => choose (Variant.options variants) s
  | .number (.integer n) =>
    match if 0 ≤ n then variants[n.toNat]? else none with
    | some v => .ok v
    | none =>
      if 0 ≤ n then
        .error (.invalidValue (.number (.integer n))
          ("variant index 0 <= i < " ++ toString variants.length))
      else .error (.invalidType (.number (.integer n)) "variant identifier")
  | doc => .error (.invalidType doc.found "variant identifier")

/-- Splits fields into the one that is the tag and the others. -/
def splitTag (tag : String) (variants : List (Variant α)) :
    Option (Variant α) → List (String × Json) →
    Except Error (Variant α × List (String × Json))
  | none, [] => .error (.missingField tag)
  | some v, [] => .ok (v, [])
  | found, (name, doc) :: rest => do
    if name == tag then
      match found with
      | some _ => .error (.duplicateField tag)
      | none =>
        let v ← tagOfJson variants doc
        splitTag tag variants (some v) rest
    else
      let (v, others) ← splitTag tag variants found rest
      .ok (v, (name, doc) :: others)

/-- Reads the fields of an object up to its end, the tag apart from the others;
`others` are those so far, last one first, and `n` bounds the number of fields. -/
def readTagged (tag : String) (variants : List (Variant α)) (levels : Nat) :
    Nat → Bool → Option (Variant α) → List (String × Json) →
    Reader (Variant α × List (String × Json))
  | 0, _, _, _, _ => .error .expectedValue
  | n + 1, first, found, others, cs => do
    match ← nextField first cs with
    | none =>
      match found with
      | none => .error (.missingField tag)
      | some v => .ok ((v, others.reverse), cs)
    | some cs =>
      let (name, cs) ← readString cs
      if name == tag then
        match found with
        | some _ => .error (.duplicateField tag)
        | none =>
          let cs ← readColon cs
          let (v, cs) ← (identifier (Variant.options variants)).read levels cs
          readTagged tag variants levels n false (some v) others cs
      else
        let cs ← readColon cs
        let (doc, cs) ← readValue levels cs
        readTagged tag variants levels n false found ((name, doc) :: others) cs

/-- Reads an alternative with its tag inside; `wanted` names the type in messages. -/
def taggedInside (wanted tag : String) (variants : List (Variant α)) : Decoder α where
  read levels cs :=
    match skipSpace cs, levels with
    | '[' :: _, 0 => .error .tooDeep
    | '[' :: rest, n + 1 => do
      match ← nextItem true rest with
      | none => .error (.missingField tag)
      | some rest =>
        let (v, rest) ← (identifier (Variant.options variants)).read n rest
        let (items, rest) ← readItems (readValue n) (rest.length + 1) false rest
        let rest ← closeList rest
        let x ← v.ofItems items
        .ok (x, rest)
    | '\x7b' :: _, 0 => .error .tooDeep
    | '\x7b' :: rest, n + 1 => do
      let ((v, fields), rest) ← readTagged tag variants n (rest.length + 1) true none [] rest
      let rest ← closeObject rest
      let x ← v.ofFields fields
      .ok (x, rest)
    | cs, _ => .error (mismatch wanted cs)
  ofJson
    | .object fields => do
      let (v, others) ← splitTag tag variants none fields
      v.ofFields others
    | .array [] => .error (.missingField tag)
    | .array (doc :: items) => do
      let v ← tagOfJson variants doc
      v.ofItems items
    | doc => .error (.invalidType doc.found wanted)

/-! ## The tag beside its content -/

/-- The two fields that count in an object with the tag beside its content. -/
inductive Part where
  /-- The name of the alternative. -/
  | tag
  /-- What it carries. -/
  | content
  deriving DecidableEq, Repr

/-- Goes to the value of the next field that counts, passing over all others; `n`
bounds the number of fields.  The colon stays unread. -/
def nextPart (tag content : String) : Nat → Bool → Reader (Option Part)
  | 0, _, _ => .error .expectedValue
  | n + 1, first, cs => do
    match ← nextField first cs with
    | none => .ok (none, cs)
    | some cs =>
      let (name, cs) ← readString cs
      if name == tag then .ok (some .tag, cs)
      else if name == content then .ok (some .content, cs)
      else
        let cs ← readColon cs
        let cs ← skipValue cs
        nextPart tag content n false cs

/-- Checks that no further field of an object counts, after the alternative was
read. -/
def noFurther (tag content : String) (n : Nat) (x : α) : Reader α
  | cs => do
    match ← nextPart tag content n false cs with
    | (none, cs) => .ok (x, cs)
    | (some .tag, _) => .error (.duplicateField tag)
    | (some .content, _) => .error (.duplicateField content)

/-- Reads the fields of an object with the tag beside its content. -/
def readBeside (tag content : String) (options : List (String × Decoder α)) (levels : Nat) :
    Reader α
  | cs => do
    let n := cs.length + 1
    match ← nextPart tag content n true cs with
    | (none, _) => .error (.missingField tag)
    | (some .tag, cs) =>
      let cs ← readColon cs
      let (d, cs) ← (choice options).read levels cs
      match ← nextPart tag content n false cs with
      | (none, _) => .error (.missingField content)
      | (some .tag, _) => .error (.duplicateField tag)
      | (some .content, cs) =>
        let cs ← readColon cs
        let (x, cs) ← d.read levels cs
        noFurther tag content n x cs
    | (some .content, cs) =>
      let cs ← readColon cs
      let (doc, cs) ← readValue levels cs
      match ← nextPart tag content n false cs with
      | (none, _) => .error (.missingField tag)
      | (some .content, _) => .error (.duplicateField content)
      | (some .tag, cs) =>
        let cs ← readColon cs
        let (d, cs) ← (choice options).read levels cs
        let x ← d.ofJson doc
        noFurther tag content n x cs

/-- Reads an alternative with its tag beside its content; `wanted` names the type
in messages. -/
def taggedBeside (wanted tag content : String) (options : List (String × Decoder α)) :
    Decoder α where
  read levels cs :=
    match skipSpace cs, levels with
    | '[' :: _, 0 => .error .tooDeep
    | '[' :: rest, n + 1 => do
      match ← nextItem true rest with
      | none => .error (.invalidLength 0 wanted)
      | some rest =>
        let (d, rest) ← (choice options).read n rest
        match ← nextItem false rest with
        | none => .error (.invalidLength 1 wanted)
        | some rest =>
          let (x, rest) ← d.read n rest
          let rest ← closeList rest
          .ok (x, rest)
    | '\x7b' :: _, 0 => .error .tooDeep
    | '\x7b' :: rest, n + 1 => do
      let (x, rest) ← readBeside tag content options n rest
      let rest ← closeObject rest
      .ok (x, rest)
    | cs, _ => .error (mismatch wanted cs)
  ofJson
    | .object fields =>
      match fields.lookup tag, fields.lookup content with
      | none, _ => .error (.missingField tag)
      | some _, none => .error (.missingField content)
      | some name, some doc => do
        let d ← (choice options).ofJson name
        d.ofJson doc
    | .array [name, doc] => do
      let d ← (choice options).ofJson name
      d.ofJson doc
    | .array items => .error (.invalidLength items.length wanted)
    | doc => .error (.invalidType doc.found wanted)

end Decoder

end SerialBridge.Json
