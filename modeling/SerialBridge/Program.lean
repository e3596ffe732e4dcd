import SerialBridge.Bridge
import SerialBridge.Console.Input
import SerialBridge.Program.Files
import SerialBridge.Settings.Document

/-! # The program

The program is a bridge with a console, which is one more client: what is typed
becomes requests, and what is published for the console is printed.  It is a state
and its transitions; each transition gives the lines printed and the errors shown.
It ends at the end of input, when asked to, when something typed is no text, or when
a request breaks down, and then it stops the upload under way and closes the link.
-/

namespace SerialBridge

/-- What the program shows. -/
structure Output where
  /-- Lines printed. -/
  out : List String := []
  /-- Lines of errors. -/
  err : List String := []
  deriving DecidableEq, Repr

namespace Output

/-- The lines of a text. -/
def linesOf (text : String) : List String :=
  (Text.splitAt '\n' text.toList).map String.ofList

/-- A text printed. -/
def print (text : String) : Output :=
  { out := linesOf text }

/-- A text shown as an error. -/
def complain (text : String) : Output :=
  { err := linesOf text }

/-- One output after another. -/
def append (a b : Output) : Output :=
  ⟨a.out ++ b.out, a.err ++ b.err⟩

instance : Append Output :=
  ⟨append⟩

/-- What is shown when the program fails: what it was doing, and the cause. -/
def fatal (doing cause : String) : Output :=
  { err := linesOf ("Error: " ++ doing) ++ ["", "Caused by:"]
      ++ (linesOf cause).map ("    " ++ ·) }

end Output

/-- The program while it runs and after it has ended. -/
structure Program where
  /-- The bridge. -/
  bridge : Bridge
  /-- The console's identity. -/
  console : ClientId
  /-- The exit code, once it has ended. -/
  exit : Option Nat := none
  deriving DecidableEq, Repr

namespace Program

/-- What can be typed. -/
def helpLines : List String :=
  ["<text>            send a line (prefix with CMD: for device commands)",
   "  /send <file>      upload a text file",
   "  /stop             stop the running upload",
   "  /reconnect        reopen the serial port",
   "  /ports            list serial ports",
   "  /status           show link state and counters",
   "  /quit             exit"]

/-- How an event is printed. -/
def eventText : Event → String
  | .log text => text
  | .link (.opened path) => "[link] open on " ++ path
  | .link (.closed _) => "[link] closed"

/-- What is printed of the envelopes that a bridge has published since an earlier
state of it. -/
def printed (console : ClientId) (before after : Bridge) : Output :=
  let count := after.published.length - before.published.length
  let envelopes := (after.published.take count).reverse
  { out := (envelopes.filter (·.target.includes console)).flatMap fun e =>
      Output.linesOf (eventText e.event) }

/-- Changes the bridge and prints what it publishes. -/
def withBridge (p : Program) (f : Bridge → Bridge) : Program × Output :=
  let bridge := f p.bridge
  ({ p with bridge }, printed p.console p.bridge bridge)

/-- Ends the program: the upload under way is stopped and the link closed. -/
def shutDown (p : Program) (code : Nat) : Program :=
  let bridge := p.bridge.cancel.1
  { p with bridge := { bridge with link := bridge.link.close }, exit := some code }

/-- The exit code of a program that broke down. -/
def brokenDown : Nat :=
  101

/-- Has the bridge deal with a request and prints what it publishes. -/
def request (p : Program) (r : Request) : Program × Output :=
  match p.bridge.dispatch? p.console r with
  | some bridge => p.withBridge fun _ => bridge
  | none => (p.shutDown brokenDown, {})

/-- What is shown of the link, the totals and the upload under way. -/
def statusLines (b : Bridge) : List String :=
  let link := match b.link.currentHandle? with
    | some h => "open on " ++ h.path
    | none => b.link.status.summary
  let c := b.link.counters
  let totals := toString c.framesWritten.toNat ++ " frames / " ++ toString c.bytesWritten.toNat
    ++ " bytes out, " ++ toString c.linesRead.toNat ++ " lines in"
  let upload := b.engine.progress?.map fun u =>
    "upload: " ++ toString u.framesSent ++ "/" ++ toString u.totalFrames ++ " frames, "
      ++ toString u.bytesSent ++ "/" ++ toString u.totalBytes ++ " bytes"
  [link, totals] ++ upload.toList

/-- How a port is listed. -/
def portLine (p : PortInfo) : String :=
  p.name ++ "  " ++ p.product.getD ""

/-- Does what was asked for at the console. -/
def perform (read : FileReader) (p : Program) : ConsoleInput → Program × Output
  | .request r => p.request r
  | .sendFile path =>
    match read.text path with
    | .ok data => p.request (.sendBulk (Directory.fileName? path) data)
    | .error e => (p, .complain ("reading " ++ path ++ ": " ++ e.message))
  | .listPorts =>
    (p, { out := (Port.discover p.bridge.link.bench.machine).map portLine })
  | .status => (p, { out := (statusLines p.bridge).flatMap Output.linesOf })
  | .help => (p, { out := helpLines })
  | .quit => (p.shutDown 0, {})

/-- Takes one typed line, without its terminator. -/
def typeLine (read : FileReader) (p : Program) (raw : Bytes) : Program × Output :=
  if p.exit.isSome then (p, {})
  else
    match Utf8.decode? raw with
    | none =>
      let (p, out) := p.withBridge fun b => b.cancel.1
      (p.shutDown 1, out ++ .fatal "reading stdin" "stream did not contain valid UTF-8")
    | some line =>
      match ConsoleInput.parse line with
      | .ok (some input) => p.perform read input
      | .ok none => (p, {})
      | .error e => (p, .complain e.message)

/-- Takes typed bytes that end with a line. -/
def type (read : FileReader) (p : Program) (bytes : Bytes) : Program × Output :=
  (Text.splitAt lineFeed bytes).foldl
    (fun (p, out) raw =>
      let (p, more) := p.typeLine read (Text.dropMark carriageReturn raw)
      (p, out ++ more))
    (p, {})

/-- The end of input. -/
def endInput (p : Program) : Program :=
  if p.exit.isSome then p else p.shutDown 0

/-- A device sends bytes: those behind the link are read, and the reports among
them printed. -/
def receive (p : Program) (device : Nat) (bytes : Bytes) : Program × Output :=
  let link := { p.bridge.link with bench := p.bridge.link.bench.feed device bytes }
  let p := { p with bridge := { p.bridge with link } }
  if p.exit.isSome then (p, {}) else p.withBridge fun b => (b.drain true b.clock).1

/-- The settings to run with: those in the file that is named, or the default ones;
otherwise what is shown about that file. -/
def configure (read : FileReader) : Option String → Except Output Settings
  | none => .ok {}
  | some path =>
    let failure (cause : String) : Output := .fatal ("loading config from " ++ path) cause
    match read path with
    | .error e => .error (failure e.message)
    | .ok content => (Settings.load content).mapError fun e => failure e.message

/-- Runs with settings: it opens the link and greets the console. -/
def run (settings : Settings) (bench : Bench) (console : ClientId) : Program × Output :=
  let bridge := Bridge.new settings bench
  let (link, _) := bridge.link.openPort settings.link.candidates settings.link.baudRate
  let p : Program := { bridge := { bridge with link }, console }
  p.withBridge (·.connect console)

/-- Starts the program, with the settings in a file if one is named. -/
def start (read : FileReader) (argument : Option String) (bench : Bench) (console : ClientId) :
    Program × Output :=
  match configure read argument with
  | .ok settings => run settings bench console
  | .error output => ({ bridge := .new {} bench, console, exit := some 1 }, output)

end Program

end SerialBridge
