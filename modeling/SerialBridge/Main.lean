import SerialBridge.Program

/-! # The command line

`main` runs the program on the files and the clock of the machine.  It decides
nothing: typed lines, bytes of a device and the passing of time become transitions
of `Program`, what they give is printed, and what the bench has taken for a device
goes into its file.

A port is a device file.  Its speed and line discipline are those the system has
set for it; best is one whose reads give up after a while, because a read that
waits holds up the end of the program.  A file that fails turns into a fault of its
device, so the program sees the failure with the next frame.
-/

namespace SerialBridge.CommandLine

/-- A device of the bench with the file behind it. -/
structure Wire where
  /-- The number of the device. -/
  device : Nat
  /-- The path of the file. -/
  path : String
  /-- The file, for writing. -/
  sink : IO.FS.Handle
  /-- Bytes read from the file that nobody has taken yet. -/
  waiting : IO.Ref ByteArray
  /-- Whether nothing more is read. -/
  retired : IO.Ref Bool

/-- Moves the bytes of a file to where they wait, until the wire is retired; a file
that fails retires it. -/
partial def pump (source : IO.FS.Handle) (waiting : IO.Ref ByteArray) (retired : IO.Ref Bool) :
    IO Unit := do
  if ← retired.get then return
  match ← (source.read 1).toBaseIO with
  | .error _ => retired.set true
  | .ok chunk =>
    if chunk.isEmpty then IO.sleep 5 else waiting.modify (· ++ chunk)
    pump source waiting retired

/-- Opens the file of a port for both directions. -/
def openWire (device : Nat) (path : String) : IO Wire := do
  let sink ← IO.FS.Handle.mk path .readWrite
  let source ← IO.FS.Handle.mk path .read
  let waiting ← IO.mkRef .empty
  let retired ← IO.mkRef false
  let _ ← IO.asTask (pump source waiting retired) .dedicated
  return { device, path, sink, waiting, retired }

/-- The wire of a path for another device: one that is still in use goes on without
the bytes that wait, and otherwise the file is opened. -/
def rewire (wires : List Wire) (device : Nat) (path : String) : IO Wire := do
  match ← wires.findM? fun wire => do return wire.path = path && !(← wire.retired.get) with
  | some wire =>
    wire.waiting.set .empty
    return { wire with device }
  | none => openWire device path

/-- What came of waiting for a typed line. -/
structure Typed where
  /-- The bytes, without the line feed. -/
  bytes : ByteArray := .empty
  /-- Whether input has ended with them. -/
  atEnd : Bool := false

/-- Waits for a typed line or the end of input. -/
partial def readTyped (source : IO.FS.Stream) (bytes : ByteArray) : IO Typed := do
  let chunk ← source.read 1
  if chunk.isEmpty then return { bytes, atEnd := true }
  else if chunk.toList.contains lineFeed then return { bytes }
  else readTyped source (bytes ++ chunk)

/-- Waits for a typed line in the background; input that fails has ended. -/
def awaitTyped : IO (Task (Except IO.Error Typed)) := do
  IO.asTask (readTyped (← IO.getStdin) .empty) .dedicated

/-- The number of a failure, which some calls of the machine give negated. -/
def errorNumber (code : UInt32) : Nat :=
  min code.toNat (-code).toNat

/-- A failure of the machine, as the program knows it. -/
def failure : IO.Error → IoError
  | .noFileOrDirectory _ code _ | .permissionDenied _ code _ | .inappropriateType _ code _
  | .invalidArgument _ code _ | .otherError code _ | .hardwareFault code _ =>
    .system (errorNumber code)
  | e => .failed (.other "Other") (toString e)

/-- Reads a file of the machine. -/
def readFile (path : String) : IO (Except IoError Bytes) := do
  match ← (IO.FS.readBinFile path).toBaseIO with
  | .ok content => return .ok content.toList
  | .error e => return .error (failure e)

/-- The names that the system gives to serial devices. -/
def entryNames : List String :=
  (List.range 32).flatMap fun n => ["ttyACM" ++ toString n, "ttyUSB" ++ toString n]

/-- The serial devices that the machine has an entry for. -/
def scan : IO Machine := do
  let entries ← entryNames.filterM fun name => do
    let path : String := "/dev/" ++ name
    match ← (IO.FS.realPath path).toBaseIO with
    | .ok _ => return true
    | .error _ => return false
  return { entries }

/-- Looks at the machine again, and plugs the first of the wanted ports that opens
into the bench, and no other.  Wires of other ports are retired. -/
def plugIn (candidates : List String) (wires : List Wire) (bench : Bench) :
    IO (Bench × List Wire) := do
  let bench := { bench with machine := ← scan, plugged := [] }
  for path in bench.pathsFor candidates do
    if let .ok wire ← (rewire wires bench.devices.length path).toBaseIO then
      for other in wires do
        if other.path ≠ path then other.retired.set true
      return (bench.plug path {}, [wire])
  for other in wires do other.retired.set true
  return (bench, [])

/-- Prints lines and shows errors. -/
def emit (o : Output) : IO Unit := do
  for line in o.out do IO.println line
  for line in o.err do IO.eprintln line
  (← IO.getStdout).flush

/-- What runs: the program, and the files behind its devices. -/
structure Session where
  /-- The program. -/
  program : Program
  /-- The files of the devices that are in use. -/
  wires : List Wire := []

/-- Puts what devices took into their files, and clears the records that have been
dealt with. -/
def transmit (s : Session) : IO Session := do
  let mut link := s.program.bridge.link
  for sent in link.transmissions.reverse do
    for wire in s.wires.filter (·.device = sent.device) do
      let write : IO Unit := do
        wire.sink.write ⟨sent.accepted.toArray⟩
        wire.sink.flush
      if let .error e ← write.toBaseIO then
        link := { link with bench := link.bench.modify wire.device fun d =>
          { d with faults := { d.faults with writeError := some (failure e) } } }
  let bridge := { s.program.bridge with
    link := { link with transmissions := [], attempts := [] }
    published := [] }
  return { s with program := { s.program with bridge } }

/-- Makes a transition, shows what it gives and sends what is to be sent. -/
def step (s : Session) (f : Program → Program × Output) : IO Session := do
  let (program, output) := f s.program
  emit output
  transmit { s with program }

/-- The program with the machine as it is now. -/
def rescan (p : Program) : IO Program := do
  let link := p.bridge.link
  let link := { link with bench := { link.bench with machine := ← scan } }
  return { p with bridge := { p.bridge with link } }

/-- Takes one typed line: the file that it names is read, and the machine is looked
at when it lists the ports or has the link opened again. -/
def typeLine (s : Session) (raw : Bytes) : IO Session := do
  let raw := Text.dropMark carriageReturn raw
  match (Utf8.decode? raw).map ConsoleInput.parse with
  | some (.ok (some (.sendFile path))) =>
    let content ← readFile path
    step s (·.typeLine (fun _ => content) raw)
  | some (.ok (some (.request .reconnect))) =>
    let settings := s.program.bridge.settings
    IO.sleep settings.settleMs.toUInt32
    let link := s.program.bridge.link
    let (bench, wires) ← plugIn settings.candidates s.wires link.bench
    let bridge := { s.program.bridge with link := { link with bench } }
    let s := { program := { s.program with bridge }, wires }
    step s (·.typeLine (fun _ => .error (.system 2)) raw)
  | some (.ok (some .listPorts)) =>
    let s := { s with program := ← rescan s.program }
    step s (·.typeLine (fun _ => .error (.system 2)) raw)
  | _ => step s (·.typeLine (fun _ => .error (.system 2)) raw)

/-- Takes what has been typed; at the end of input that includes an unfinished
line. -/
def takeTyped (s : Session) (typed : Typed) : IO Session := do
  if !typed.atEnd then typeLine s typed.bytes.toList
  else
    let s ← if typed.bytes.isEmpty then pure s else typeLine s typed.bytes.toList
    return { s with program := s.program.endInput }

/-- Takes what the devices have sent. -/
def takeReceived (s : Session) : IO Session :=
  s.wires.foldlM
    (fun s wire => do
      let bytes ← wire.waiting.modifyGet fun bytes => (bytes, .empty)
      if bytes.isEmpty then return s
      else step s (·.receive wire.device bytes.toList)) s

/-- Goes round until the program has ended: the clock, the devices, the console. -/
partial def serve (typing : Task (Except IO.Error Typed)) (origin : Nat) (s : Session) :
    IO UInt32 := do
  let elapsed := (← IO.monoMsNow) - origin
  let s ← step s (·.withBridge fun b => b.advance (elapsed - b.clock))
  let s ← takeReceived s
  let s ← step s (·.withBridge fun b => (b.poll b.clock).1)
  let typed ← IO.hasFinished typing
  let s ← if typed then takeTyped s (typing.get.toOption.getD { atEnd := true }) else pure s
  match s.program.exit with
  | some code =>
    for wire in s.wires do wire.retired.set true
    return code.toUInt32
  | none =>
    IO.sleep 5
    serve (← if typed then awaitTyped else pure typing) origin s

/-- A fresh identity for the console. -/
def freshClient : IO ClientId := do
  let bytes ← IO.getRandomBytes 16
  return .ofRandom (BitVec.ofNat 128 (bytes.toList.foldl (fun n b => n * 256 + b.toNat) 0))

/-- Runs the program, with a file of settings if one is named, and gives its exit
code. -/
def run (argument : Option String) : IO UInt32 := do
  let content ← match argument with
    | some path => readFile path
    | none => pure (.error (.system 2))
  match Program.configure (fun _ => content) argument with
  | .error output =>
    emit output
    return 1
  | .ok settings =>
    let (bench, wires) ← plugIn settings.link.candidates [] {}
    let (program, output) := Program.run settings bench (← freshClient)
    emit output
    serve (← awaitTyped) (← IO.monoMsNow) { program, wires }

end SerialBridge.CommandLine

/-- Runs the bridge: the argument, if there is one, names a file of settings. -/
def main (args : List String) : IO UInt32 :=
  SerialBridge.CommandLine.run args.head?
