/-! # Text as bytes

The wire carries bytes, the clients read text.  `encode` gives the UTF-8 bytes
of a text.  In the other direction a byte string falls apart into *pieces*: a
piece is a character, or a maximal stretch of bytes that starts a character and
does not finish it.  `decode?` reads a text only when every piece is a
character; `decodeLossy` always reads one, with U+FFFD for every broken piece.

The pieces come from a machine that takes one byte at a time.  Within a
character it knows how many bytes are still owed and which range the next one
must lie in; the ranges after `E0`, `ED`, `F0` and `F4` keep out overlong forms,
surrogates and numbers beyond U+10FFFF.
-/

namespace SerialBridge

/-- Bytes as they stand on the wire or in a file. -/
abbrev Bytes := List UInt8

namespace Utf8

/-- The bytes of a text. -/
def encode (s : String) : Bytes :=
  s.toList.flatMap String.utf8EncodeChar

/-- Where the machine stands between two bytes. -/
inductive State where
  /-- Between characters. -/
  | between
  /-- Inside a character: so many bytes owed, the next one in a range, and the
  bits gathered so far. -/
  | within (owed : Nat) (low high : UInt8) (value : Nat)
  deriving DecidableEq, Repr

/-- The first byte of a piece: the piece if it is complete, and the state after it. -/
def enter (b : UInt8) : List (Option Char) × State :=
  let n := b.toNat
  if n < 0x80 then ([some (Char.ofNat n)], .between)
  else if n < 0xC2 then ([none], .between)
  else if n < 0xE0 then ([], .within 1 0x80 0xBF (n - 0xC0))
  else if n = 0xE0 then ([], .within 2 0xA0 0xBF 0)
  else if n = 0xED then ([], .within 2 0x80 0x9F 0xD)
  else if n < 0xF0 then ([], .within 2 0x80 0xBF (n - 0xE0))
  else if n = 0xF0 then ([], .within 3 0x90 0xBF 0)
  else if n < 0xF4 then ([], .within 3 0x80 0xBF (n - 0xF0))
  else if n = 0xF4 then ([], .within 3 0x80 0x8F 4)
  else ([none], .between)

/-- One byte: the pieces it completes, and the state after it.  A byte that does
not continue the character breaks it off and starts a piece of its own. -/
def step : State → UInt8 → List (Option Char) × State
  | .between, b => enter b
  | .within owed low high value, b =>
    if low ≤ b ∧ b ≤ high then
      let value := value * 64 + b.toNat % 64
      if owed ≤ 1 then ([some (Char.ofNat value)], .between)
      else ([], .within (owed - 1) 0x80 0xBF value)
    else
      let (done, next) := enter b
      (none :: done, next)

/-- The pieces of the bytes that follow a state; an unfinished character at the
end is a broken piece. -/
def piecesFrom : State → Bytes → List (Option Char)
  | .between, [] => []
  | .within .., [] => [none]
  | s, b :: rest => (step s b).1 ++ piecesFrom (step s b).2 rest

/-- Cuts bytes into characters and, each shown as `none`, broken pieces. -/
def pieces (bytes : Bytes) : List (Option Char) :=
  piecesFrom .between bytes

/-- The text, if the bytes are well-formed throughout. -/
def decode? (bytes : Bytes) : Option String :=
  ((pieces bytes).mapM id).map String.ofList

/-- The text with U+FFFD for every broken piece. -/
def decodeLossy (bytes : Bytes) : String :=
  String.ofList ((pieces bytes).map (·.getD '\uFFFD'))

end Utf8

end SerialBridge
