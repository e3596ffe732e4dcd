import SerialBridge.Json.Decoder

/-! # Identities of clients

A client is known by a number of 128 bits, written as 32 hexadecimal digits in
five groups.  A fresh identity is random except for the six bits that say so.
-/

namespace SerialBridge

/-- The identity of one client. -/
structure ClientId where
  /-- The number. -/
  value : BitVec 128
  deriving DecidableEq, Repr

namespace ClientId

/-- A fresh identity from 128 random bits: the version is 4 and the variant the
standard one. -/
def ofRandom (bits : BitVec 128) : ClientId :=
  let kept := bits &&& ~~~(0xF000#128 <<< 64 ||| 0xC#128 <<< 60)
  ⟨kept ||| 0x4000#128 <<< 64 ||| 0x8#128 <<< 60⟩

/-- The 32 hexadecimal digits of the number, leading zeros included. -/
def digits (c : ClientId) : List Char :=
  let ds := Nat.toDigits 16 c.value.toNat
  List.replicate (32 - ds.length) '0' ++ ds

/-- The lengths of the groups. -/
def groupLengths : List Nat := [8, 4, 4, 4, 12]

/-- Cuts a list into groups of given lengths. -/
def groups : List Nat → List α → List (List α)
  | [], _ => []
  | n :: ns, xs => xs.take n :: groups ns (xs.drop n)

/-- The written form: the digits in groups with dashes between them. -/
def text (c : ClientId) : String :=
  String.ofList (['-'].intercalate (groups groupLengths c.digits))

/-- The written form without a wrapping in braces or a leading scheme, how many
bytes were taken off in front, and whether nothing was. -/
def unwrap (s : List Char) : List Char × Nat × Bool :=
  match "urn:uuid:".toList.isPrefixOf? s with
  | some rest => (rest, 9, false)
  | none =>
    match s with
    | '\x7b' :: rest =>
      if rest.getLast? = some '\x7d' then (rest.dropLast, 1, false) else (s, 0, true)
    | _ => (s, 0, true)

/-- The value of some hexadecimal digits. -/
def ofDigits (ds : List Char) : ClientId :=
  ⟨BitVec.ofNat 128 (ds.foldl (fun n d => n * 16 + (Json.hexValue? d).getD 0) 0)⟩

/-- The first character that is neither a digit nor a dash, with the position of
its first byte, counted from `index`. -/
def badCharacter (index : Nat) : List Char → Option (Char × Nat)
  | [] => none
  | c :: rest =>
    if (Json.hexValue? c).isSome || c == '-' then badCharacter (index + 1) rest
    else some (c, index)

/-- The refusal of a group for its length. -/
def badGroup (i length : Nat) : String :=
  "invalid group length in group " ++ toString i ++ ": expected "
    ++ toString (groupLengths[i]?.getD 0) ++ ", found " ++ toString length

/-- Why a text that is no identity is refused: a wrong character, no groups and the
wrong length, the wrong number of groups, or a group of the wrong length.  The
length told for the last group is that of all the text after the first 24 bytes. -/
def refusal (s : String) : String :=
  let (body, offset, bare) := unwrap s.toList
  match badCharacter (offset + 1) body with
  | some (c, index) =>
    "invalid character: expected an optional prefix of `urn:uuid:` followed by "
      ++ "[0-9a-fA-F-], found `" ++ c.toString ++ "` at " ++ toString index
  | none =>
    let parts := (body.splitOn '-').map List.length
    if parts.length = 1 ∧ bare then "invalid length: found " ++ toString s.utf8ByteSize
    else if parts.length ≠ 5 then
      "invalid group count: expected 5, found " ++ toString parts.length
    else
      match (List.range 4).find? fun i => parts[i]? != groupLengths[i]? with
      | some i => badGroup i (parts[i]?.getD 0)
      | none => badGroup 4 (s.utf8ByteSize - 24)

/-- The identity that a text stands for: 32 digits, or five groups with dashes
between them, which may also be wrapped. -/
def parse (s : String) : Except String ClientId :=
  let (body, _, bare) := unwrap s.toList
  let parts := body.splitOn '-'
  let isDigits := parts.all (·.all fun c => (Json.hexValue? c).isSome)
  let lengths := parts.map List.length
  if isDigits ∧ (lengths = groupLengths ∨ (bare ∧ lengths = [32])) then
    .ok (ofDigits parts.flatten)
  else .error ("UUID parsing failed: " ++ refusal s)

/-- Reads an identity. -/
def decoder : Json.Decoder ClientId :=
  Json.Decoder.checkedString "a formatted UUID string" fun s =>
    (parse s).mapError .malformed

/-- The identity as a document. -/
def toJson (c : ClientId) : Json :=
  .string c.text

end ClientId

end SerialBridge
