import SerialBridge.Decimal.Shortest

/-! # JSON documents

A document is a tree.  An object keeps its fields in the order they were written,
and a number is an integer of 64 bits, signed or unsigned, or a binary64 number
held by its bits.
-/

namespace SerialBridge

namespace Json

/-- A number in a document. -/
inductive Number where
  /-- An integer from `-2^63` to `2^64 - 1`. -/
  | integer (n : Int)
  /-- Any other number, by the bits of its binary64 value. -/
  | real (bits : UInt64)
  deriving DecidableEq, Repr

/-- The number as it is shown in messages and written in documents. -/
def Number.text : Number → String
  | .integer n => toString n
  | .real bits => Decimal.ofBits bits

end Json

/-- A JSON document. -/
inductive Json where
  /-- The literal `null`. -/
  | null
  /-- A truth value. -/
  | bool (b : Bool)
  /-- A number. -/
  | number (n : Json.Number)
  /-- A text. -/
  | string (s : String)
  /-- A sequence. -/
  | array (items : List Json)
  /-- A map, in written order. -/
  | object (fields : List (String × Json))
  deriving Repr

namespace Json

/-- A natural number as a document. -/
def nat (n : Nat) : Json :=
  .number (.integer n)

/-- A text that may be missing; nothing is written as `null`. -/
def optionalString : Option String → Json
  | none => .null
  | some s => .string s

end Json

end SerialBridge
