import SerialBridge.Settings
import SerialBridge.Frame
import SerialBridge.Plan.Chunks

/-! # Planning an upload

A plan is the list of frames that carry a payload, in send order, together with
the strategy they follow.  The automatic mode measures the encoded blob, since
escaping makes newlines longer; a single-shot plan cuts the payload itself at
the ceiling and remembers how long it was.

Making a plan of chunks can break down, because cutting the payload can (`chunks?`).
`Plan.build` says what the plan is, and `Plan.build?` makes it.
-/

namespace SerialBridge

/-- The frames for one payload. -/
structure Plan where
  /-- How the frames go out. -/
  strategy : Strategy
  /-- The frames, in send order. -/
  frames : List Frame
  /-- The length of the payload, if it was cut to the ceiling. -/
  truncatedFrom : Option Nat
  deriving DecidableEq, Repr

namespace Plan

/-- The strategy the settings choose for a payload. -/
def choose (payload : Bytes) (settings : TransferSettings) : Strategy :=
  match settings.mode with
  | .singleShot => .singleShot
  | .paced => .paced
  | .auto =>
    if Frame.blobLength payload ≤ settings.blobCeiling.toNat then .singleShot else .paced

/-- The plan that carries a payload under the settings, where it can be made. -/
def build (payload : Bytes) (settings : TransferSettings) : Plan :=
  match choose payload settings with
  | .singleShot =>
    let ceiling := settings.blobCeiling.toNat
    { strategy := .singleShot
      frames := [.blob (payload.take ceiling)]
      truncatedFrom := if ceiling < payload.length then some payload.length else none }
  | .paced =>
    { strategy := .paced
      frames := (chunks payload settings.chunkSize.toNat).map .chunk
      truncatedFrom := none }

/-- Makes the plan for a payload.  It breaks down where the payload is to be cut into
chunks and cannot be. -/
def build? (payload : Bytes) (settings : TransferSettings) : Option Plan :=
  match choose payload settings with
  | .singleShot => some (build payload settings)
  | .paced =>
    (chunks? payload settings.chunkSize.toNat).map fun parts =>
      { strategy := .paced, frames := parts.map .chunk, truncatedFrom := none }

/-- Payload bytes that some frames carry together. -/
def bytesOf (frames : List Frame) : Nat :=
  frames.foldr (fun f n => f.payloadLength + n) 0

/-- Payload bytes that all frames carry together. -/
def payloadLength (p : Plan) : Nat :=
  bytesOf p.frames

end Plan

end SerialBridge
