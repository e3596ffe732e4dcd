import SerialBridge.Json.Tagged
import SerialBridge.Json.Writer

/-! # What is told about the link

Clients are told whether a port is open and which; operators also see totals of
the traffic, which count modulo `2^64`.
-/

namespace SerialBridge

open Json

/-- Whether a link is open. -/
inductive LinkStatus where
  /-- A port is open. -/
  | opened (path : String)
  /-- No port is open; the path is the last one that was open or tried. -/
  | closed (path : Option String)
  deriving DecidableEq, Repr

namespace LinkStatus

/-- The alternatives of a status document. -/
def variants : List (Variant LinkStatus) :=
  [{ names := ["open"]
     body := .inr
       { label := "struct variant LinkStatus::Open"
         start := .opened ""
         fields := [.of "path" .string (fun p _ => .opened p) .refused] } },
   { names := ["closed"]
     body := .inr
       { label := "struct variant LinkStatus::Closed"
         start := .closed none
         fields := [.of "path" (.optional .string) (fun p _ => .closed p) .byName] } }]

/-- Reads a status. -/
def decoder : Decoder LinkStatus :=
  .taggedInside "internally tagged enum LinkStatus" "state" variants

/-- The status as a document. -/
def toJson : LinkStatus → Json
  | .opened path => .object [("state", .string "open"), ("path", .string path)]
  | .closed path => .object [("state", .string "closed"), ("path", .optionalString path)]

/-- The status as operators are shown it. -/
def summary : LinkStatus → String
  | .opened path => "Open \x7b path: " ++ Text.quote path ++ " \x7d"
  | .closed none => "Closed \x7b path: None \x7d"
  | .closed (some path) => "Closed \x7b path: Some(" ++ Text.quote path ++ ") \x7d"

end LinkStatus

/-- Totals of the traffic. -/
structure Counters where
  /-- Frames put on the wire. -/
  framesWritten : UInt64 := 0
  /-- Bytes put on the wire, terminators included. -/
  bytesWritten : UInt64 := 0
  /-- Lines taken off the wire, echoes and blanks included. -/
  linesRead : UInt64 := 0
  deriving DecidableEq, Repr

namespace Counters

/-- The fields of the totals. -/
def record : Record Counters where
  label := "struct LinkCounters"
  start := {}
  fields :=
    [.of "frames_written" .uint64 (fun v c => { c with framesWritten := v }) .refused,
     .of "bytes_written" .uint64 (fun v c => { c with bytesWritten := v }) .refused,
     .of "lines_read" .uint64 (fun v c => { c with linesRead := v }) .refused]

/-- Reads totals. -/
def decoder : Decoder Counters :=
  record.decoder

/-- The totals as a document. -/
def toJson (c : Counters) : Json :=
  .object
    [("frames_written", .nat c.framesWritten.toNat),
     ("bytes_written", .nat c.bytesWritten.toNat),
     ("lines_read", .nat c.linesRead.toNat)]

end Counters

end SerialBridge
