import SerialBridge.Frame.Escape
import SerialBridge.Text.Lines

/-! # Assembling lines from reads

A read may stop anywhere in a line.  The buffer holds the unfinished line back
and hands over each line once its line feed has come in.  Two rules bound what
it holds: a stretch without a line feed goes out in pieces of `maxLength` bytes
as soon as it fills one, and an unfinished line goes out as it is once the
device has been quiet for a while.
-/

namespace SerialBridge

/-- Bytes of an unfinished line, and when input last came in, in milliseconds. -/
structure LineBuffer where
  /-- The unfinished line. -/
  pending : Bytes := []
  /-- When input last came in, if any has. -/
  lastInput : Option Nat := none
  deriving DecidableEq, Repr

namespace LineBuffer

/-- The longest stretch without a line feed that is handed over in one piece. -/
def maxLength : Nat := 4096

/-- How long an unfinished line may wait, in milliseconds. -/
def maxIdle : Nat := 1000

/-- A buffer that has seen no input. -/
def empty : LineBuffer := {}

/-- Cuts off whole pieces of `maxLength` bytes; `n` bounds their number. -/
def wholePieces : Nat → Bytes → List Bytes × Bytes
  | 0, bytes => ([], bytes)
  | n + 1, bytes =>
    if bytes.length < maxLength then ([], bytes)
    else
      let (rest, left) := wholePieces n (bytes.drop maxLength)
      (bytes.take maxLength :: rest, left)

/-- Takes input at a time and hands over what it completes, in order. -/
def push (b : LineBuffer) (now : Nat) (bytes : Bytes) : LineBuffer × List Bytes :=
  let parts := Text.splitAt lineFeed (b.pending ++ bytes)
  let unfinished := parts.getLastD []
  let (pieces, left) := wholePieces (unfinished.length / maxLength) unfinished
  ({ pending := left, lastInput := some now }, parts.dropLast ++ pieces)

/-- Whether no input has come in for so many milliseconds; a buffer that never
saw input is not idle. -/
def isIdle (b : LineBuffer) (now idle : Nat) : Bool :=
  match b.lastInput with
  | some t => t + idle ≤ now
  | none => false

/-- Hands over the unfinished line if the device has been quiet long enough. -/
def flushIdle (b : LineBuffer) (now idle : Nat) : LineBuffer × Option Bytes :=
  if b.isIdle now idle && !b.pending.isEmpty then
    ({ b with pending := [] }, some b.pending)
  else (b, none)

end LineBuffer

end SerialBridge
