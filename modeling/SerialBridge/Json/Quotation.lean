import SerialBridge.Json.Number

/-! # Strings in a JSON text

A string is read one character at a time by a small machine, which starts after
the opening quote.  Between characters it is `plain`; after a backslash it waits
for the escape; after `\u` it gathers four hexadecimal digits, and where they
name the first half of a pair it waits for the second.  `writeString` is the
other direction: quotes, backslashes and controls are escaped, all else stands
for itself.
-/

namespace SerialBridge.Json

/-- What the string machine waits for. -/
inductive StringState where
  /-- A character or the closing quote. -/
  | plain
  /-- The letter of an escape. -/
  | escape
  /-- So many more hexadecimal digits, the value so far, and the first half of a
  pair if this is the second. -/
  | hex (owed value : Nat) (first : Option Nat)
  /-- The backslash before the second half of a pair. -/
  | pairSlash (first : Nat)
  /-- The letter of the second half of a pair. -/
  | pairLetter (first : Nat)
  deriving DecidableEq, Repr

/-- The character that an escape letter stands for. -/
def escapeLetter : Char → Option Char
  | '"' => some '"'
  | '\\' => some '\\'
  | '/' => some '/'
  | 'b' => some '\x08'
  | 'f' => some '\x0c'
  | 'n' => some '\n'
  | 'r' => some '\r'
  | 't' => some '\t'
  | _ => none

/-- The value of a hexadecimal digit. -/
def hexValue? (c : Char) : Option Nat :=
  if '0' ≤ c ∧ c ≤ '9' then some (c.toNat - '0'.toNat)
  else if 'a' ≤ c ∧ c ≤ 'f' then some (c.toNat - 'a'.toNat + 10)
  else if 'A' ≤ c ∧ c ≤ 'F' then some (c.toNat - 'A'.toNat + 10)
  else none

/-- The first half of a pair. -/
def isFirstHalf (n : Nat) : Bool :=
  0xD800 ≤ n && n ≤ 0xDBFF

/-- The second half of a pair. -/
def isSecondHalf (n : Nat) : Bool :=
  0xDC00 ≤ n && n ≤ 0xDFFF

/-- The character that a pair stands for. -/
def ofPair (first second : Nat) : Char :=
  Char.ofNat ((first - 0xD800) * 0x400 + (second - 0xDC00) + 0x10000)

/-- Whether at least so many bytes of text are left. -/
def hasBytes (n : Nat) (cs : List Char) : Bool :=
  n ≤ (cs.take n).foldr (fun c size => c.utf8Size + size) 0

/-- What four hexadecimal digits mean: a character, or a first half that waits
for the second. -/
def completeHex (value : Nat) (first : Option Nat) : Except Error (Char ⊕ Nat) :=
  match first with
  | none =>
    if isSecondHalf value then .error .loneSurrogate
    else if isFirstHalf value then .ok (.inr value)
    else .ok (.inl (Char.ofNat value))
  | some f => if isSecondHalf value then .ok (.inl (ofPair f value)) else .error .loneSurrogate

/-- Reads a string from a state of the machine, `acc` being the characters so far,
last one first. -/
def readStringFrom (state : StringState) (acc : List Char) : Reader String
  | [] => .error .endInString
  | c :: rest =>
    match state with
    | .plain =>
      if c = '"' then .ok (String.ofList acc.reverse, rest)
      else if c = '\\' then readStringFrom .escape acc rest
      else if c.toNat < 0x20 then .error .controlCharacter
      else readStringFrom .plain (c :: acc) rest
    | .escape =>
      if c = 'u' then readStringFrom (.hex 4 0 none) acc rest
      else
        match escapeLetter c with
        | some d => readStringFrom .plain (d :: acc) rest
        | none => .error .invalidEscape
    | .hex owed value first =>
      match hexValue? c with
      | none => if hasBytes owed (c :: rest) then .error .invalidEscape else .error .endInString
      | some d =>
        let value := value * 16 + d
        if 1 < owed then readStringFrom (.hex (owed - 1) value first) acc rest
        else
          match completeHex value first with
          | .error e => .error e
          | .ok (.inl d) => readStringFrom .plain (d :: acc) rest
          | .ok (.inr f) => readStringFrom (.pairSlash f) acc rest
    | .pairSlash f =>
      if c = '\\' then readStringFrom (.pairLetter f) acc rest else .error .unfinishedPair
    | .pairLetter f =>
      if c = 'u' then readStringFrom (.hex 4 0 (some f)) acc rest else .error .unfinishedPair

/-- Reads a string after its opening quote. -/
def readString : Reader String :=
  readStringFrom .plain []

/-- Passes over a string after its opening quote.  Escapes have to have the right
form, but halves of pairs may stand anywhere. -/
def skipStringFrom (state : StringState) : List Char → Except Error (List Char)
  | [] => .error .endInString
  | c :: rest =>
    match state with
    | .escape =>
      if c = 'u' then skipStringFrom (.hex 4 0 none) rest
      else if (escapeLetter c).isSome then skipStringFrom .plain rest
      else .error .invalidEscape
    | .hex owed value first =>
      match hexValue? c with
      | none => if hasBytes owed (c :: rest) then .error .invalidEscape else .error .endInString
      | some _ =>
        if 1 < owed then skipStringFrom (.hex (owed - 1) value first) rest
        else skipStringFrom .plain rest
    | .plain | .pairSlash _ | .pairLetter _ =>
      if c = '"' then .ok rest
      else if c = '\\' then skipStringFrom .escape rest
      else if c.toNat < 0x20 then .error .controlCharacter
      else skipStringFrom .plain rest

/-- Passes over a string after its opening quote. -/
def skipString : List Char → Except Error (List Char) :=
  skipStringFrom .plain

/-- A hexadecimal digit, in lower case. -/
def hexDigit (n : Nat) : Char :=
  if n < 10 then Char.ofNat ('0'.toNat + n) else Char.ofNat ('a'.toNat + n - 10)

/-- How a character is written inside a string. -/
def writeChar (c : Char) : List Char :=
  if c = '"' then ['\\', '"']
  else if c = '\\' then ['\\', '\\']
  else if c = '\n' then ['\\', 'n']
  else if c = '\r' then ['\\', 'r']
  else if c = '\t' then ['\\', 't']
  else if c = '\x08' then ['\\', 'b']
  else if c = '\x0c' then ['\\', 'f']
  else if c.toNat < 0x20 then
    ['\\', 'u', '0', '0', hexDigit (c.toNat / 16), hexDigit (c.toNat % 16)]
  else [c]

/-- A string between quotes. -/
def writeString (s : String) : List Char :=
  '"' :: s.toList.flatMap writeChar ++ ['"']

end SerialBridge.Json
