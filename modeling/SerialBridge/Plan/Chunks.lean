import SerialBridge.Frame.Escape

/-! # Cutting a payload into chunks

Whole lines, terminators included, are packed into chunks of a bounded size: a
chunk is closed when the next line would not fit.  A line longer than a chunk is
cut into pieces of exactly the bound, and what is left of it opens the next
chunk.  A bound of zero counts as one.

The buffer for the chunk under way is made for the whole bound before anything is
packed, and no buffer can be made for more than `maxBuffer` bytes.  Under a larger
bound nothing is cut at all, however short the payload (`chunks?`).  Up to there,
memory is taken for granted.
-/

namespace SerialBridge

/-- The lines of a payload, each with its terminator; the last may have none. -/
def inclusiveLines : Bytes → List Bytes
  | [] => []
  | b :: rest =>
    if b = lineFeed then [b] :: inclusiveLines rest
    else
      match inclusiveLines rest with
      | [] => [[b]]
      | line :: lines => (b :: line) :: lines

/-- Pieces of exactly `size` bytes off the front while more than that is left,
and what is left; `n` bounds the number of pieces. -/
def cutFull (size : Nat) : Nat → Bytes → List Bytes × Bytes
  | 0, bytes => ([], bytes)
  | n + 1, bytes =>
    if (bytes.drop size).isEmpty then ([], bytes)
    else
      let (pieces, left) := cutFull size n (bytes.drop size)
      (bytes.take size :: pieces, left)

/-- Packs lines into chunks, `current` being the chunk under way. -/
def packLines (size : Nat) (current : Bytes) : List Bytes → List Bytes
  | [] => if current.isEmpty then [] else [current]
  | line :: lines =>
    let full := !current.isEmpty && size < current.length + line.length
    let closed := if full then [current] else []
    let kept := if full then [] else current
    let (pieces, left) := cutFull size line.length line
    closed ++ pieces ++ packLines size (kept ++ left) lines

/-- The chunks of a payload, in order, where there is room to pack them. -/
def chunks (payload : Bytes) (size : Nat) : List Bytes :=
  packLines (max size 1) [] (inclusiveLines payload)

/-- The most bytes a buffer can be made for: those a signed word can count. -/
def maxBuffer : Nat :=
  UInt64.size / 2 - 1

/-- Cuts a payload into chunks.  It breaks down if no buffer can be made for a chunk,
which is found out before the payload is looked at. -/
def chunks? (payload : Bytes) (size : Nat) : Option (List Bytes) :=
  if max size 1 ≤ maxBuffer then some (chunks payload size) else none

end SerialBridge
