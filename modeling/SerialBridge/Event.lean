import SerialBridge.Client
import SerialBridge.Link.Status

/-! # Events for clients

An event is a line for the log of a client or news of the link.  An envelope says
who an event is for: everyone, or one client only.
-/

namespace SerialBridge

open Json

/-- What clients are told. -/
inductive Event where
  /-- A line for the log. -/
  | log (text : String)
  /-- The link was opened, closed or replaced. -/
  | link (status : LinkStatus)
  deriving DecidableEq, Repr

namespace Event

/-- The alternatives of an event document. -/
def options : List (String × Decoder Event) :=
  [("log_message", Decoder.string.map .log), ("link_status", LinkStatus.decoder.map .link)]

/-- Reads an event. -/
def decoder : Decoder Event :=
  .taggedBeside "adjacently tagged enum Event" "event" "data" options

/-- The event as a document. -/
def toJson : Event → Json
  | .log text => .object [("event", .string "log_message"), ("data", .string text)]
  | .link status => .object [("event", .string "link_status"), ("data", status.toJson)]

end Event

/-- Who an event is for. -/
inductive Target where
  /-- Every client. -/
  | all
  /-- One client. -/
  | client (id : ClientId)
  deriving DecidableEq, Repr

namespace Target

/-- What a bare name or a field of a target document says. -/
inductive Kind where
  /-- Every client. -/
  | all
  /-- One client. -/
  | client
  deriving DecidableEq, Repr

/-- Reads a target. -/
def decoder : Decoder Target :=
  .alternative [("all", Kind.all), ("client", Kind.client)]
    (fun
      | .all => .ok .all
      | .client => .error (.invalidType .unitVariant "newtype variant"))
    (fun
      | .all => Decoder.unit.map fun _ => .all
      | .client => ClientId.decoder.map .client)

/-- The target as a document. -/
def toJson : Target → Json
  | .all => .string "all"
  | .client id => .object [("client", id.toJson)]

/-- Whether a client gets what is sent to the target. -/
def includes : Target → ClientId → Bool
  | .all, _ => true
  | .client id, c => id == c

end Target

/-- An event and who it is for. -/
structure Envelope where
  /-- Who it is for. -/
  target : Target
  /-- What it says. -/
  event : Event
  deriving DecidableEq, Repr

namespace Envelope

/-- An event for everyone. -/
def broadcast (event : Event) : Envelope :=
  ⟨.all, event⟩

/-- An event for one client. -/
def reply (client : ClientId) (event : Event) : Envelope :=
  ⟨.client client, event⟩

/-- The fields of an envelope document. -/
def record : Record Envelope where
  label := "struct Envelope"
  start := ⟨.all, .log ""⟩
  fields :=
    [.of "target" Target.decoder (fun v e => { e with target := v }) .refused,
     .of "event" Event.decoder (fun v e => { e with event := v }) .refused]

/-- Reads an envelope. -/
def decoder : Decoder Envelope :=
  record.decoder

/-- The envelope as a document. -/
def toJson (e : Envelope) : Json :=
  .object [("target", e.target.toJson), ("event", e.event.toJson)]

end Envelope

end SerialBridge
