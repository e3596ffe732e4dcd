import SerialBridge.Device
import SerialBridge.Frame
import SerialBridge.LineBuffer
import SerialBridge.Link.Status

/-! # The serial link

A link owns at most one open port at a time.  Each opening makes a new *handle*,
which is open as long as it is the current one: every operation that replaces or
drops the link first withdraws the current handle and marks it closed.  A writer
may hold a handle from earlier; writing through it fails once it is closed, so
nothing meant for one port ever reaches another.

The state keeps every handle there ever was, by number, and a record of what was
done to the outside, most recent first: the attempts to open a port, and the
transmissions, each with the bytes the device took.  `clear`, `install` and
`writeOn` are single steps; `openPort`, `close` and `reconnect` are made of them.
-/

namespace SerialBridge

/-- One opening of a port. -/
structure Handle where
  /-- The path that was opened. -/
  path : String
  /-- The device behind it. -/
  device : Nat
  /-- Whether the handle can still be used. -/
  isOpen : Bool := true
  /-- The unfinished line read through it. -/
  lines : LineBuffer := {}
  deriving DecidableEq, Repr

/-- The handle as operators are shown it. -/
def Handle.summary (h : Handle) : String :=
  "LinkHandle \x7b path: " ++ Text.quote h.path ++ ", open: "
    ++ (if h.isOpen then "true" else "false") ++ " \x7d"

/-- On whose behalf a frame is written. -/
inductive Author where
  /-- A client's line. -/
  | line
  /-- The upload of a number. -/
  | upload (id : Nat)
  deriving DecidableEq, Repr

/-- A frame written through an open handle, and what came of it. -/
structure Transmission where
  /-- The handle. -/
  handle : Nat
  /-- The device behind it. -/
  device : Nat
  /-- On whose behalf. -/
  author : Author
  /-- The frame. -/
  frame : Frame
  /-- The bytes the device took. -/
  accepted : Bytes
  /-- The error, if the frame did not go out whole. -/
  error : Option IoError
  deriving DecidableEq, Repr

/-- The link and its surroundings. -/
structure Link where
  /-- The surroundings. -/
  bench : Bench := {}
  /-- All handles there ever were, by number. -/
  handles : List Handle := []
  /-- The number of the current handle. -/
  current : Option Nat := none
  /-- The last port that was open or, before any was, the first one tried. -/
  lastPath : Option String := none
  /-- Totals. -/
  counters : Counters := {}
  /-- Attempts to open a port, most recent first. -/
  attempts : List Attempt := []
  /-- Frames written, most recent first. -/
  transmissions : List Transmission := []
  deriving DecidableEq, Repr

namespace Link

/-- The handle of a number. -/
def handle? (l : Link) (h : Nat) : Option Handle :=
  l.handles[h]?

/-- The current handle. -/
def currentHandle? (l : Link) : Option Handle :=
  l.current.bind l.handle?

/-- Whether a link is open. -/
def isOpen (l : Link) : Bool :=
  l.current.isSome

/-- The path of the open port. -/
def portName? (l : Link) : Option String :=
  l.currentHandle?.map (·.path)

/-- What clients are told about the link. -/
def status (l : Link) : LinkStatus :=
  match l.currentHandle? with
  | some h => .opened h.path
  | none => .closed l.lastPath

/-! ## Opening and closing -/

/-- Withdraws the current handle and closes it. -/
def clear (l : Link) : Link :=
  match l.current with
  | none => l
  | some h =>
    { l with
      current := none
      handles := l.handles.modify h fun handle => { handle with isOpen := false } }

/-- Makes a device the link: its stale input is dropped, a channel for reading is
taken, and a new handle becomes the current one. -/
def install (l : Link) (path : String) (device : Nat) : Link × Except LinkError String :=
  let l := { l with bench := l.bench.modify device Device.clearInput }
  match (l.bench.devices[device]?).bind (·.faults.cloneError) with
  | some e => (l, .error (.ofIo e))
  | none =>
    ({ l with
       handles := l.handles ++ [{ path, device }]
       current := some l.handles.length
       lastPath := some path }, .ok path)

/-- Opens the first candidate that has a device, with no link open. -/
def openFirst (l : Link) (candidates : List String) (baudRate : UInt32) :
    Link × Except LinkError String :=
  let (attempts, found) := l.bench.probe candidates baudRate
  let l := { l with attempts := attempts.reverse ++ l.attempts }
  match found with
  | .ok (path, device) => l.install path device
  | .error e => ({ l with lastPath := l.lastPath <|> candidates.head? }, .error e)

/-- Opens a link in place of the one that is open, if any. -/
def openPort (l : Link) (candidates : List String) (baudRate : UInt32) :
    Link × Except LinkError String :=
  l.clear.openFirst candidates baudRate

/-- Closes the link. -/
def close (l : Link) : Link :=
  l.clear

/-- Drops the link, lets the port settle and opens a link again.  Another one may
have been opened in the pause, and it is replaced as well. -/
def reconnect (l : Link) (candidates : List String) (baudRate : UInt32) :
    Link × Except LinkError String :=
  l.clear.openPort candidates baudRate

/-! ## Writing -/

/-- The totals with one more frame. -/
def countFrame (c : Counters) (f : Frame) : Counters :=
  { c with
    framesWritten := c.framesWritten + 1
    bytesWritten := c.bytesWritten + UInt64.ofNat f.encode.length }

/-- Writes a frame through a handle, current or not. -/
def writeOn (l : Link) (author : Author) (h : Nat) (frame : Frame) :
    Link × Except LinkError Unit :=
  match l.handle? h with
  | none => (l, .error .closed)
  | some handle =>
    if !handle.isOpen then (l, .error .closed)
    else
      match l.bench.devices[handle.device]? with
      | none => (l, .error .closed)
      | some device =>
        let (device, written) := device.writeAll frame.encode
        let l := { l with
          bench := l.bench.modify handle.device fun _ => device
          transmissions :=
            { handle := h, device := handle.device, author, frame,
              accepted := written.accepted, error := written.error } :: l.transmissions }
        match written.error with
        | some e => (l, .error (.ofIo e))
        | none => ({ l with counters := countFrame l.counters frame }, .ok ())

/-- Writes a frame to the current link on behalf of a client. -/
def write (l : Link) (frame : Frame) : Link × Except LinkError Unit :=
  match l.current with
  | none => (l, .error .closed)
  | some h => l.writeOn .line h frame

/-! ## Reading -/

/-- The most bytes taken in one read. -/
def readSize : Nat := 1024

/-- Takes input that is waiting behind an open handle, at most `readSize` bytes of
it, or gives nothing when none is waiting.  A read that times out takes no bytes. -/
def takeInput (l : Link) (h : Nat) : Link × Except IoError (Option Bytes) :=
  match (l.handle? h).filter (·.isOpen) with
  | none => (l, .error (.failed .notConnected "link closed"))
  | some handle =>
    match l.bench.devices[handle.device]? with
    | none => (l, .error (.failed .notConnected "link closed"))
    | some device =>
      match device.available with
      | .error e => (l, .error e)
      | .ok 0 => (l, .ok none)
      | .ok waiting =>
        let (device, result) := device.read (min waiting readSize)
        let l := { l with bench := l.bench.modify handle.device fun _ => device }
        match result with
        | .error e => (l, if e.kind = .timedOut then .ok (some []) else .error e)
        | .ok bytes => (l, .ok (some bytes))

/-- The unfinished line of a handle. -/
def lines (l : Link) (h : Nat) : LineBuffer :=
  ((l.handle? h).map (·.lines)).getD .empty

/-- Stores the unfinished line of a handle. -/
def setLines (l : Link) (h : Nat) (lines : LineBuffer) : Link :=
  { l with handles := l.handles.modify h fun handle => { handle with lines } }

/-- Takes the input that is waiting behind a handle, at a time, and gives the lines
it completes.  Without input an unfinished line is given once it is old enough. -/
def readLines (l : Link) (now : Nat) (h : Nat) : Link × Except IoError (List Bytes) :=
  match l.takeInput h with
  | (l, .error e) => (l, .error e)
  | (l, .ok none) =>
    let (lines, flushed) := (l.lines h).flushIdle now LineBuffer.maxIdle
    (l.setLines h lines, .ok flushed.toList)
  | (l, .ok (some bytes)) =>
    let (lines, done) := (l.lines h).push now bytes
    (l.setLines h lines, .ok done)

/-- Adds lines to the totals. -/
def countLines (l : Link) (n : Nat) : Link :=
  { l with counters := { l.counters with linesRead := l.counters.linesRead + UInt64.ofNat n } }

end Link

end SerialBridge
