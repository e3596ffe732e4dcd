import SerialBridge.Json.Tagged
import SerialBridge.Json.Writer

/-! # Requests of clients

A client can have a line sent, upload a text, stop the running upload and have
the port opened again.  Each request has a kind, by which it is routed; some
kinds go by a second name in documents, which is read and never written.
-/

namespace SerialBridge

open Json

/-- What a client asks for. -/
inductive Request where
  /-- Send a command or a message, as typed. -/
  | sendCommand (data : String)
  /-- Upload a text under a name. -/
  | sendBulk (filename : Option String) (data : String)
  /-- Stop the running upload. -/
  | stopTransfer
  /-- Open the port again. -/
  | reconnect
  deriving DecidableEq, Repr

/-- The kinds of request. -/
inductive RequestKind where
  /-- Send a line. -/
  | sendCommand
  /-- Upload a text. -/
  | sendBulk
  /-- Stop the running upload. -/
  | stopTransfer
  /-- Open the port again. -/
  | reconnect
  deriving DecidableEq, Repr

namespace Request

/-- The kind of a request. -/
def kind : Request → RequestKind
  | .sendCommand _ => .sendCommand
  | .sendBulk .. => .sendBulk
  | .stopTransfer => .stopTransfer
  | .reconnect => .reconnect

/-- The alternatives of a request document. -/
def variants : List (Variant Request) :=
  [{ names := ["send_command"]
     body := .inr
       { label := "struct variant Request::SendCommand"
         start := .sendCommand ""
         fields := [.of "data" .string (fun d _ => .sendCommand d) .refused] } },
   { names := ["send_bulk", "send_bulk_text"]
     body := .inr
       { label := "struct variant Request::SendBulk"
         start := .sendBulk none ""
         fields :=
           [.of "filename" (.optional .string)
              (fun f r => match r with
                | .sendBulk _ d => .sendBulk f d
                | r => r) .allowed,
            .of "data" .string
              (fun d r => match r with
                | .sendBulk f _ => .sendBulk f d
                | r => r) .refused] } },
   { names := ["stop_file_transfer", "stop_transfer"], body := .inl .stopTransfer },
   { names := ["reconnect", "reconnect_serial"], body := .inl .reconnect }]

/-- Reads a request. -/
def decoder : Decoder Request :=
  .taggedInside "internally tagged enum Request" "event" variants

/-- The request as a document. -/
def toJson : Request → Json
  | .sendCommand data => .object [("event", .string "send_command"), ("data", .string data)]
  | .sendBulk filename data =>
    .object
      [("event", .string "send_bulk"), ("filename", .optionalString filename),
       ("data", .string data)]
  | .stopTransfer => .object [("event", .string "stop_transfer")]
  | .reconnect => .object [("event", .string "reconnect")]

end Request

end SerialBridge
