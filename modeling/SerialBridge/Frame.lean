import SerialBridge.Frame.Escape

/-! # Frames on the wire

Everything sent to the device is a frame, and every frame is one line.  A typed
line is a command when it begins with `CMD:` and otherwise a message that the
device relays as it is; both are cut at their first line break.  The bodies of
an upload travel as chunks (`FILE:`) or as one blob (`FILEB:`) with their
newlines escaped.  `Frame.encode` gives the exact bytes, terminator included.
-/

namespace SerialBridge

/-- One unit written to the device. -/
inductive Frame where
  /-- A device command: the text after its tag. -/
  | command (text : String)
  /-- An untagged line. -/
  | message (text : String)
  /-- One piece of a paced upload. -/
  | chunk (body : Bytes)
  /-- A whole upload at once. -/
  | blob (body : Bytes)
  deriving DecidableEq, Repr

namespace Frame

/-- The tag of a command, as typed and as sent. -/
def commandTag : String := "CMD:"

/-- The tag of a chunk. -/
def chunkTag : String := "FILE:"

/-- The tag of a blob. -/
def blobTag : String := "FILEB:"

/-- The frame for a line typed by a user. -/
def ofInput (text : String) : Frame :=
  match commandTag.toList.isPrefixOf? text.toList with
  | some rest => .command (String.ofList rest)
  | none => .message text

/-- The first line of some bytes, without carriage returns. -/
def firstLine (bytes : Bytes) : Bytes :=
  (bytes.takeWhile (· != lineFeed)).filter (· != carriageReturn)

/-- The frame without its terminator. -/
def line : Frame → Bytes
  | .command text => Utf8.encode commandTag ++ firstLine (Utf8.encode text)
  | .message text => firstLine (Utf8.encode text)
  | .chunk body => Utf8.encode chunkTag ++ escape body
  | .blob body => Utf8.encode blobTag ++ escape body

/-- The bytes put on the wire. -/
def encode (f : Frame) : Bytes :=
  f.line ++ [lineFeed]

/-- How many bytes of payload the frame carries, before escaping. -/
def payloadLength : Frame → Nat
  | .command text | .message text => text.utf8ByteSize
  | .chunk body | .blob body => body.length

/-- How the frame is shown to a reader: bodies by their size only. -/
def summary : Frame → String
  | .command text => commandTag ++ text
  | .message text => text
  | .chunk body => s!"{chunkTag}<{body.length} bytes>"
  | .blob body => s!"{blobTag}<{body.length} bytes>"

/-- The length of a blob on the wire, tag and terminator included, predicted
from its body. -/
def blobLength (body : Bytes) : Nat :=
  blobTag.utf8ByteSize + escapedLength body + 1

end Frame

end SerialBridge
