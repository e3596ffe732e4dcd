import SerialBridge.Json.Error

/-! # Numbers in a JSON text

A number is read from the left with its digits gathered into a significand of 64
bits.  Digits that no longer fit only move the decimal point.  A number without
fraction and exponent that fits 64 bits is an integer; every other one is the
binary64 value of its significand scaled by a power of ten, one rounding for
the significand and one for each scaling.
-/

namespace SerialBridge.Json

/-- A reader takes what it reads off the front of a text. -/
abbrev Reader (α : Type) := List Char → Except Error (α × List Char)

/-- A decimal digit. -/
def isDigit (c : Char) : Bool :=
  '0' ≤ c && c ≤ '9'

/-- The value of a decimal digit. -/
def digitValue (c : Char) : Nat :=
  c.toNat - '0'.toNat

/-- Adds digits to a significand while it stays below `2^64`: the significand,
how many digits it took, and the digits that no longer fit. -/
def gather (significand taken : Nat) : List Char → Nat × Nat × List Char
  | [] => (significand, taken, [])
  | d :: ds =>
    let next := significand * 10 + digitValue d
    if next < UInt64.size then gather next (taken + 1) ds else (significand, taken, d :: ds)

/-- The digits at the front, and what follows them. -/
def takeDigits (cs : List Char) : List Char × List Char :=
  (cs.takeWhile isDigit, cs.dropWhile isDigit)

/-- Scales a value by a power of ten in steps of at most `10^308`; nothing if the
result is too large. -/
def scale (value : Float) (exponent : Int) : Nat → Option Float
  | 0 => some value
  | fuel + 1 =>
    if exponent.natAbs ≤ 308 then
      let power := Float.ofScientific 1 false exponent.natAbs
      let result := if 0 ≤ exponent then value * power else value / power
      if result.isInf then none else some result
    else if value == 0 then some value
    else if 0 ≤ exponent then none
    else scale (value / Float.ofScientific 1 false 308) (exponent + 308) fuel

/-- The binary64 number with a sign, a significand and a power of ten. -/
def realNumber (negative : Bool) (significand : Nat) (exponent : Int) :
    Except Error Number :=
  match scale (Float.ofNat significand) exponent 8 with
  | none => .error .numberOutOfRange
  | some value => .ok (.real (if negative then -value else value).toBits)

/-- The number with a sign and a significand that has neither fraction nor
exponent: an integer, unless it is a negative zero or below `-2^63`. -/
def wholeNumber (negative : Bool) (significand : Nat) : Number :=
  if !negative then .integer significand
  else if significand = 0 ∨ UInt64.size < 2 * significand then
    .real (-(Float.ofNat significand)).toBits
  else .integer (-(significand : Int))

/-- Reads an exponent after its letter and finishes the number. -/
def readExponent (negative : Bool) (significand : Nat) (exponent : Int) : Reader Number
  | cs =>
    let (down, cs) := match cs with
      | '+' :: rest => (false, rest)
      | '-' :: rest => (true, rest)
      | _ => (false, cs)
    match takeDigits cs with
    | ([], []) => .error .endInValue
    | ([], _ :: _) => .error .invalidNumber
    | (digits, rest) => do
      let shift : Int := digits.foldl (fun n d => n * 10 + digitValue d) 0
      let n ← realNumber negative significand (if down then exponent - shift else exponent + shift)
      .ok (n, rest)

/-- Finishes a number after its fraction. -/
def readAfterFraction (negative : Bool) (significand : Nat) (exponent : Int) : Reader Number
  | 'e' :: rest | 'E' :: rest => readExponent negative significand exponent rest
  | rest => do
    let n ← realNumber negative significand exponent
    .ok (n, rest)

/-- Reads a fraction after its point and finishes the number; `shift` counts the
whole digits that no longer fit the significand. -/
def readFraction (negative : Bool) (significand shift : Nat) : Reader Number
  | cs =>
    let (digits, rest) := takeDigits cs
    match digits, rest with
    | [], [] => .error .endInValue
    | [], _ :: _ => .error .invalidNumber
    | _ :: _, _ =>
      let (significand, taken, _) := gather significand 0 digits
      readAfterFraction negative significand (shift - taken : Int) rest

/-- Reads a number after its sign. -/
def readUnsigned (negative : Bool) : Reader Number
  | cs =>
    match takeDigits cs with
    | ([], []) => .error .endInValue
    | ([], _ :: _) => .error .invalidNumber
    | ('0' :: _ :: _, _) => .error .invalidNumber
    | (digits, rest) =>
      let (significand, _, dropped) := gather 0 0 digits
      match rest with
      | '.' :: rest => readFraction negative significand dropped.length rest
      | 'e' :: rest | 'E' :: rest => readExponent negative significand dropped.length rest
      | _ =>
        if dropped.isEmpty then .ok (wholeNumber negative significand, rest)
        else do
          let n ← realNumber negative significand dropped.length
          .ok (n, rest)

/-- Reads a number. -/
def readNumber : Reader Number
  | '-' :: rest => readUnsigned true rest
  | cs => readUnsigned false cs

/-- Passes over digits of which there has to be one. -/
def skipDigits : List Char → Except Error (List Char)
  | cs =>
    match takeDigits cs with
    | ([], _) => .error .invalidNumber
    | (_, rest) => .ok rest

/-- Passes over an exponent after its letter. -/
def skipExponent : List Char → Except Error (List Char)
  | '+' :: rest | '-' :: rest => skipDigits rest
  | cs => skipDigits cs

/-- Passes over a number, checking its form and not its size. -/
def skipNumber (cs : List Char) : Except Error (List Char) := do
  let cs := match cs with
    | '-' :: rest => rest
    | cs => cs
  let rest ← match takeDigits cs with
    | ([], _) => .error .invalidNumber
    | ('0' :: _ :: _, _) => .error .invalidNumber
    | (_, rest) => .ok rest
  let rest ← match rest with
    | '.' :: rest => skipDigits rest
    | _ => pure rest
  match rest with
  | 'e' :: rest | 'E' :: rest => skipExponent rest
  | _ => pure rest

end SerialBridge.Json
