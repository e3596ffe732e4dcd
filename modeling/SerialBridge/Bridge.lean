import SerialBridge.Event
import SerialBridge.Inbound
import SerialBridge.Link
import SerialBridge.Request
import SerialBridge.Transfer

/-! # The bridge

The bridge joins the link, the uploads and the clients.  Its state holds all
three, a clock that only `advance` moves, and the envelopes published, most recent
first.  Requests of clients are routed by their kind (`Bridge.route`); reading
takes lines off the link and publishes the reports among them (`Bridge.poll`);
uploads are driven by `Bridge.work`, which does whatever is due up to a time, one
frame or one ending at a step.

A request for an upload breaks down where its plan cannot be made.  `Bridge.dispatch`
says what comes of a request otherwise, and `Bridge.dispatch?` deals with it.
-/

namespace SerialBridge

/-- A bridge with its surroundings. -/
structure Bridge where
  /-- Candidates and baud rate used when a client has the port opened again. -/
  settings : LinkSettings := {}
  /-- The link. -/
  link : Link := {}
  /-- The uploads. -/
  engine : Engine := {}
  /-- The time, in milliseconds. -/
  clock : Nat := 0
  /-- Envelopes published, most recent first. -/
  published : List Envelope := []
  deriving DecidableEq, Repr

namespace Bridge

/-- A bridge with nothing open and nothing sent. -/
def new (settings : Settings) (bench : Bench) : Bridge where
  settings := settings.link
  link := { bench }
  engine := { settings := settings.transfer }

/-- Publishes an envelope. -/
def publish (b : Bridge) (e : Envelope) : Bridge :=
  { b with published := e :: b.published }

/-- Publishes a line for the log of everyone. -/
def announce (b : Bridge) (text : String) : Bridge :=
  b.publish (.broadcast (.log text))

/-- Publishes a line for the log of one client. -/
def tell (b : Bridge) (client : ClientId) (text : String) : Bridge :=
  b.publish (.reply client (.log text))

/-! ## Uploads under way -/

/-- What a client is told when its upload has ended. -/
def closingText (total : Nat) : Outcome → Option String
  | .skipped => none
  | .completed bytesSent 1 =>
    some ("✓ File sent as a single frame (" ++ toString bytesSent ++ " bytes)")
  | .completed _ frames => some ("✓ File sent in " ++ toString frames ++ " chunks")
  | .cancelled _ frames =>
    some ("Transmission stopped after " ++ toString frames ++ " of " ++ toString total ++ " chunks")
  | .failed reason _ _ => some ("Error during transmission: " ++ reason.message)

/-- Ends an upload: the engine is free before its client is told. -/
def endUpload (b : Bridge) (u : Upload) (outcome : Outcome) : Bridge :=
  let b := { b with engine := b.engine.finish u.id outcome }
  match if u.announced then closingText u.plan.frames.length outcome else none with
  | some text => b.tell u.client text
  | none => b

/-- Does the next thing of an upload that runs over a handle: it ends if it was
stopped, and otherwise writes its next frame, which ends it if the write fails or
was the last one. -/
def stepUpload (b : Bridge) (u : Upload) (handle : Nat) : Bridge :=
  if u.stopped then b.endUpload u (.cancelled u.bytesSent u.framesSent)
  else
    match u.pending with
    | [] => b.endUpload u (.completed u.bytesSent u.framesSent)
    | frame :: rest =>
      match b.link.writeOn (.upload u.id) handle frame with
      | (link, .error reason) =>
        { b with link }.endUpload u (.failed reason u.bytesSent u.framesSent)
      | (link, .ok ()) =>
        let due := b.clock + b.engine.settings.frameDelayMs.toNat
        let sent := u.advance frame rest handle due
        let b := { b with link, engine := b.engine.modify u.id fun _ => sent }
        if rest.isEmpty then b.endUpload sent (.completed sent.bytesSent sent.framesSent)
        else b

/-- The upload that runs, with its handle and the time it has something to do. -/
def running? (b : Bridge) : Option (Upload × Nat × Nat) :=
  b.engine.active.bind fun u =>
    match u.stage, u.due? with
    | .running handle _, some due => some (u, handle, due)
    | _, _ => none

/-- Does what is due up to a time, in order of time; the number bounds the steps. -/
def workFor : Nat → Nat → Bridge → Bridge
  | 0, _, b => b
  | n + 1, time, b =>
    match b.running? with
    | none => b
    | some (u, handle, due) =>
      if due ≤ time then
        workFor n time ({ b with clock := max b.clock due }.stepUpload u handle)
      else b

/-- Does all that is due up to a time: a frame for each step, and one ending. -/
def work (b : Bridge) (time : Nat) : Bridge :=
  workFor ((b.engine.active.map (·.pending.length)).getD 0 + 1) time b

/-- Does all that is due now. -/
def settle (b : Bridge) : Bridge :=
  b.work b.clock

/-- Moves the clock, doing what comes due on the way. -/
def advance (b : Bridge) (ms : Nat) : Bridge :=
  { b.work (b.clock + ms) with clock := b.clock + ms }

/-- What the client of an upload is told when it starts. -/
def startTexts (settings : TransferSettings) (plan : Plan) : List String :=
  let ceiling := settings.blobCeiling.toNat
  let warning := plan.truncatedFrom.map fun size =>
    "Warning: " ++ (LinkError.payloadTooLarge size ceiling).message ++ "; only the first "
      ++ toString ceiling ++ " bytes will be sent"
  let splitting := if plan.strategy = .paced then
    some ("Splitting into " ++ toString plan.frames.length ++ " chunks for reliability...")
    else none
  warning.toList ++ splitting.toList

/-- Sets the upload of a number running over the current handle, if it holds the
engine and has not been started; without a link it fails. -/
def launch (b : Bridge) (id : Nat) : Bridge :=
  match b.engine.active.filter fun u => u.id == id && u.stage == .claimed with
  | none => b
  | some u =>
    let b := (startTexts b.engine.settings u.plan).foldl (·.tell u.client) b
    match b.link.current with
    | none => b.endUpload u (.failed .closed 0 0)
    | some handle =>
      { b with
        engine := b.engine.modify id fun u => { u with stage := .running handle b.clock } }

/-- Starts the upload of a number: it is set running, and what is due at once is
done. -/
def start (b : Bridge) (id : Nat) : Bridge :=
  (b.launch id).settle

/-- Claims the engine for a payload whose plan can be made. -/
def begin (b : Bridge) (client : ClientId) (payload : Bytes) (announced : Bool) :
    Bridge × Except TransferError (Option Upload) :=
  let (engine, result) := b.engine.begin client payload announced
  ({ b with engine }, result)

/-- Claims the engine for a payload, unless making its plan breaks down. -/
def begin? (b : Bridge) (client : ClientId) (payload : Bytes) (announced : Bool) :
    Option (Bridge × Except TransferError (Option Upload)) :=
  (b.engine.begin? client payload announced).map fun (engine, result) =>
    ({ b with engine }, result)

/-- Asks the upload under way to stop, and tells whether there is one. -/
def cancel (b : Bridge) : Bridge × Bool :=
  let (engine, found) := b.engine.cancel
  ({ b with engine }.settle, found)

/-- Asks the upload of a number to stop. -/
def stop (b : Bridge) (id : Nat) : Bridge :=
  { b with engine := b.engine.stop id }.settle

/-- Gives up an upload that has not been started. -/
def drop (b : Bridge) (id : Nat) : Bridge :=
  { b with engine := b.engine.drop id }

/-! ## Reading -/

/-- What one look for input came to. -/
inductive Poll where
  /-- No link is open. -/
  | noLink
  /-- Nothing was complete. -/
  | quiet
  /-- So many reports were published. -/
  | forwarded (n : Nat)
  /-- The device has gone. -/
  | dropped
  /-- Something else failed. -/
  | fault
  deriving DecidableEq, Repr

/-- Takes the lines that are complete off the current link, at a time. -/
def takeLines (b : Bridge) (now : Nat) : Bridge × Except Poll (List Bytes) :=
  match b.link.current with
  | none => (b, .error .noLink)
  | some h =>
    match b.link.readLines now h with
    | (link, .error e) =>
      ({ b with link }, .error (if e.isTransient then .dropped else .fault))
    | (link, .ok []) => ({ b with link }, .error .quiet)
    | (link, .ok lines) => ({ b with link }, .ok lines)

/-- Publishes the reports among some lines and counts the lines. -/
def deliver (b : Bridge) (lines : List Bytes) : Bridge :=
  let b := (lines.filterMap Inbound.report?).foldl announce b
  { b with link := b.link.countLines lines.length }

/-- Looks for input once, at a time. -/
def poll (b : Bridge) (now : Nat) : Bridge × Poll :=
  match b.takeLines now with
  | (b, .error outcome) => (b, outcome)
  | (b, .ok lines) => (b.deliver lines, .forwarded (lines.filterMap Inbound.report?).length)

/-- Input waiting behind the current link. -/
def waiting (b : Bridge) : Bytes :=
  match b.link.currentHandle? with
  | none => []
  | some h => ((b.link.bench.devices[h.device]?).map (·.input)).getD []

/-- Looks for input until none is waiting, and tells whether the reader is still
there.  Where publishing fails, the first report ends the reader, and the lines
read with it are lost.  The number bounds the looks. -/
def drainFor (canPublish : Bool) (now : Nat) : Nat → Bridge → Bridge × Bool
  | 0, b => (b, true)
  | n + 1, b =>
    if b.waiting.isEmpty then (b, true)
    else
      match b.takeLines now with
      | (b, .error _) => drainFor canPublish now n b
      | (b, .ok lines) =>
        if !canPublish && !(lines.filterMap Inbound.report?).isEmpty then (b, false)
        else drainFor canPublish now n (b.deliver lines)

/-- Looks for input until none is waiting; each look that finds some takes a byte
at least. -/
def drain (b : Bridge) (canPublish : Bool) (now : Nat) : Bridge × Bool :=
  drainFor canPublish now b.waiting.length b

/-! ## Requests -/

/-- Tells a new client how the link stands. -/
def connect (b : Bridge) (client : ClientId) : Bridge :=
  let status := b.link.status
  let text := match status with
    | .opened path => "Serial Port " ++ path ++ " OPEN"
    | .closed path =>
      "Serial Port " ++ (path <|> b.settings.candidates.head?).getD "(none)"
        ++ " closed or unavailable"
  ((b.tell client "Connected to Web Dashboard").tell client text).publish
    (.reply client (.link status))

/-- Sends a line.  Everyone is told when it went out, and the sender when it did
not. -/
def sendLine (b : Bridge) (client : ClientId) (data : String) : Bridge :=
  if data.isEmpty then b
  else
    match b.link.write (.ofInput data) with
    | (link, .ok ()) => { b with link }.announce ("> " ++ data)
    | (link, .error .closed) => { b with link }.tell client "Error: Serial port not open"
    | (link, .error e) => { b with link }.tell client ("Error sending command: " ++ e.message)

/-- Uploads a text under a name. -/
def sendText (b : Bridge) (client : ClientId) (filename : Option String) (data : String) :
    Bridge :=
  if data.isEmpty then b
  else
    match b.begin client (Utf8.encode data) true with
    | (b, .ok none) => b
    | (b, .error .busy) => b.tell client "Error: a file transfer is already in progress"
    | (b, .error e) => b.tell client ("Error during transmission: " ++ e.message)
    | (b, .ok (some u)) =>
      let b := b.tell client ("Starting file upload: " ++ filename.getD "unknown.txt" ++ " ("
        ++ toString (Text.lineCount data) ++ " lines, " ++ toString data.utf8ByteSize ++ " bytes)")
      b.start u.id

/-- Has the upload under way stopped. -/
def stopUpload (b : Bridge) (client : ClientId) : Bridge :=
  match b.engine.cancel with
  | (engine, true) => ({ b with engine }.tell client "Stopping transmission...").settle
  | (_, false) => b

/-- Has the port opened again and tells everyone how that went. -/
def reopen (b : Bridge) : Bridge :=
  let (link, result) := b.link.reconnect b.settings.candidates b.settings.baudRate
  let text := match result with
    | .ok path => "Reconnected to " ++ path
    | .error e => "Failed to connect: " ++ e.message
  ({ b with link }.announce text).publish (.broadcast (.link link.status))

/-- Has the handler of a kind deal with a request.  Handlers that need the contents
of a request of their kind let others pass. -/
def route (b : Bridge) (kind : RequestKind) (client : ClientId) (request : Request) : Bridge :=
  match kind, request with
  | .sendCommand, .sendCommand data => b.sendLine client data
  | .sendCommand, _ => b
  | .sendBulk, .sendBulk filename data => b.sendText client filename data
  | .sendBulk, _ => b
  | .stopTransfer, _ => b.stopUpload client
  | .reconnect, _ => b.reopen

/-- What comes of a request. -/
def dispatch (b : Bridge) (client : ClientId) (request : Request) : Bridge :=
  b.route request.kind client request

/-- Has the handler of a kind deal with a request.  It breaks down, and leaves the bridge
as it was, if the request is for an upload whose plan cannot be made. -/
def route? (b : Bridge) (kind : RequestKind) (client : ClientId) (request : Request) :
    Option Bridge :=
  match kind, request with
  | .sendBulk, .sendBulk _ data =>
    (b.begin? client (Utf8.encode data) true).map fun _ => b.route kind client request
  | _, _ => some (b.route kind client request)

/-- Deals with a request. -/
def dispatch? (b : Bridge) (client : ClientId) (request : Request) : Option Bridge :=
  b.route? request.kind client request

end Bridge

end SerialBridge
