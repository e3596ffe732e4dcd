/-! # Settings

What a bridge is told before it starts: which ports to try, how uploads are cut
into frames and how often the reader looks for input.  Every field has a
default, and the default value of each structure is the documented one.  Widths
are those of the stored document, so every value of these types can be written
and read back.
-/

namespace SerialBridge

/-- How an upload is put on the wire, as configured. -/
inductive Mode where
  /-- One blob, cut to the ceiling. -/
  | singleShot
  /-- Chunks with a pause between them. -/
  | paced
  /-- A blob if it fits under the ceiling, chunks otherwise. -/
  | auto
  deriving DecidableEq, Repr

/-- How one upload is put on the wire. -/
inductive Strategy where
  /-- One blob. -/
  | singleShot
  /-- Chunks with a pause between them. -/
  | paced
  deriving DecidableEq, Repr

/-- Which port is opened, and how. -/
structure LinkSettings where
  /-- Paths tried in order; an empty list means the discovered ports. -/
  candidates : List String := ["/dev/ttyACM0", "/dev/ttyACM1", "/dev/ttyACM2"]
  /-- Baud rate asked for. -/
  baudRate : UInt32 := 115200
  /-- Pause between closing and reopening, in milliseconds. -/
  settleMs : UInt64 := 500
  deriving DecidableEq, Repr

/-- How uploads are cut and paced. -/
structure TransferSettings where
  /-- Choice of strategy. -/
  mode : Mode := .singleShot
  /-- Bytes of one single-shot upload that the device can hold. -/
  blobCeiling : UInt64 := 8000
  /-- Payload bytes of one chunk. -/
  chunkSize : UInt64 := 100
  /-- Pause between chunks, in milliseconds. -/
  frameDelayMs : UInt64 := 1500
  deriving DecidableEq, Repr

/-- How long the reader pauses, in milliseconds. -/
structure ReaderSettings where
  /-- While no link is open. -/
  idlePollMs : UInt64 := 100
  /-- While no input is waiting. -/
  inputPollMs : UInt64 := 10
  /-- After an unexpected error. -/
  errorBackoffMs : UInt64 := 1000
  deriving DecidableEq, Repr

/-- Everything a bridge is told before it starts. -/
structure Settings where
  /-- Choice of port. -/
  link : LinkSettings := {}
  /-- Uploads. -/
  transfer : TransferSettings := {}
  /-- Reading. -/
  reader : ReaderSettings := {}
  deriving DecidableEq, Repr

end SerialBridge
