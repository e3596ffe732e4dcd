import SerialBridge.Error.System
import SerialBridge.Text.Quoted

/-! # What can go wrong on the link

A link error says why a port was not opened or a frame not sent; a transfer error
says why an upload did not start.  Failures of the device or of the system come
in as `IoError` and end up as the cause inside a link error, by their wording.
-/

namespace SerialBridge

/-- The kinds of input and output failure that the bridge tells apart. -/
inductive IoKind where
  /-- Nothing has that name. -/
  | notFound
  /-- Access was refused. -/
  | permissionDenied
  /-- The other side dropped the connection. -/
  | connectionReset
  /-- The connection was given up. -/
  | connectionAborted
  /-- There is no connection. -/
  | notConnected
  /-- Nobody reads what is written. -/
  | brokenPipe
  /-- The operation would have to wait. -/
  | wouldBlock
  /-- The operation took too long. -/
  | timedOut
  /-- The operation was interrupted and can be tried again. -/
  | interrupted
  /-- Input ended early. -/
  | unexpectedEof
  /-- A write took no bytes. -/
  | writeZero
  /-- Any other kind, by its name. -/
  | other (name : String)
  deriving DecidableEq, Repr

namespace IoKind

/-- The kinds with a constructor of their own, by name. -/
def names : List (String × IoKind) :=
  [("NotFound", .notFound), ("PermissionDenied", .permissionDenied),
   ("ConnectionReset", .connectionReset), ("ConnectionAborted", .connectionAborted),
   ("NotConnected", .notConnected), ("BrokenPipe", .brokenPipe), ("WouldBlock", .wouldBlock),
   ("TimedOut", .timedOut), ("Interrupted", .interrupted), ("UnexpectedEof", .unexpectedEof),
   ("WriteZero", .writeZero)]

/-- The kind of a name. -/
def ofName (name : String) : IoKind :=
  (names.lookup name).getD (.other name)

/-- The name of a kind. -/
def name : IoKind → String
  | .notFound => "NotFound"
  | .permissionDenied => "PermissionDenied"
  | .connectionReset => "ConnectionReset"
  | .connectionAborted => "ConnectionAborted"
  | .notConnected => "NotConnected"
  | .brokenPipe => "BrokenPipe"
  | .wouldBlock => "WouldBlock"
  | .timedOut => "TimedOut"
  | .interrupted => "Interrupted"
  | .unexpectedEof => "UnexpectedEof"
  | .writeZero => "WriteZero"
  | .other name => name

end IoKind

/-- A failed input or output operation. -/
inductive IoError where
  /-- A failure with a kind and a text. -/
  | failed (kind : IoKind) (text : String)
  /-- A failure that the operating system reports by number. -/
  | system (code : Nat)
  deriving DecidableEq, Repr

namespace IoError

/-- The kind of a failure. -/
def kind : IoError → IoKind
  | .failed kind _ => kind
  | .system 2 => .notFound
  | .system 1 | .system 13 => .permissionDenied
  | .system 4 => .interrupted
  | .system 11 => .wouldBlock
  | .system 32 => .brokenPipe
  | .system 103 => .connectionAborted
  | .system 104 => .connectionReset
  | .system 107 => .notConnected
  | .system 110 => .timedOut
  | .system _ => .other "Uncategorized"

/-- The wording of a failure. -/
def message : IoError → String
  | .failed _ text => text
  | .system code => SystemError.text code ++ " (os error " ++ toString code ++ ")"

/-- Whether a failed read only means that the device has gone or had nothing to
say: any failure that the system reports does, and some kinds do. -/
def isTransient : IoError → Bool
  | .system _ => true
  | .failed kind _ =>
    match kind with
    | .timedOut | .wouldBlock | .interrupted | .brokenPipe | .notConnected | .unexpectedEof
    | .notFound | .permissionDenied | .connectionReset | .connectionAborted => true
    | .writeZero | .other _ => false

end IoError

/-- Why the link did not do what was asked. -/
inductive LinkError where
  /-- None of these ports opened. -/
  | portUnavailable (candidates : List String)
  /-- No link is open, or the one in use was given up. -/
  | closed
  /-- The port failed, with the wording of the cause. -/
  | io (cause : String)
  /-- A payload over the ceiling of one frame. -/
  | payloadTooLarge (size limit : Nat)
  /-- A write was called off before it ran. -/
  | cancelled
  deriving DecidableEq, Repr

namespace LinkError

/-- The link error for a failed operation on the port. -/
def ofIo (e : IoError) : LinkError :=
  .io e.message

/-- The link error for a task that broke down with a text. -/
def ofBreakdown (text : String) : LinkError :=
  .io ("task panicked with message " ++ Text.quote text)

/-- The name of the cause. -/
def name : LinkError → String
  | .portUnavailable _ => "PortUnavailable"
  | .closed => "LinkClosed"
  | .io _ => "LinkIo"
  | .payloadTooLarge .. => "PayloadTooLarge"
  | .cancelled => "Cancelled"

/-- The wording for users. -/
def message : LinkError → String
  | .portUnavailable candidates =>
    "Could not open any serial port from " ++ Text.quoteList candidates
  | .closed => "Serial port not open"
  | .io cause => "Serial I/O error: " ++ cause
  | .payloadTooLarge size limit =>
    "Payload of " ++ toString size ++ " bytes exceeds the " ++ toString limit ++ " byte limit"
  | .cancelled => "Transfer cancelled"

/-- The error with its parts, as operators are shown it. -/
def summary : LinkError → String
  | .portUnavailable candidates =>
    "PortUnavailable \x7b candidates: " ++ Text.quoteList candidates ++ " \x7d"
  | .closed => "LinkClosed"
  | .io cause => "LinkIo(" ++ Text.quote cause ++ ")"
  | .payloadTooLarge size limit =>
    "PayloadTooLarge \x7b size: " ++ toString size ++ ", limit: " ++ toString limit ++ " \x7d"
  | .cancelled => "Cancelled"

end LinkError

/-- Why an upload did not start. -/
inductive TransferError where
  /-- Another upload is under way. -/
  | busy
  /-- The link refused it. -/
  | link (cause : LinkError)
  deriving DecidableEq, Repr

namespace TransferError

/-- The name of the cause. -/
def name : TransferError → String
  | .busy => "Busy"
  | .link cause => cause.name

/-- The wording for users. -/
def message : TransferError → String
  | .busy => "A file transfer is already in progress"
  | .link cause => cause.message

end TransferError

end SerialBridge
