import SerialBridge.Error
import SerialBridge.Port
import SerialBridge.Text.Utf8

/-! # Devices and the bench they stand on

A device takes bytes and has bytes waiting.  What it does wrong is data as well:
the errors its calls give, how much one call moves, and a script that write calls
follow before anything else.  `Device.writeAll` is the loop that repeats a write
until every byte is taken, and it tells how many were, whatever the outcome.

The bench is what a bridge finds around it: devices, the paths they are plugged
in at, and the machine's own list of ports.  A device keeps its number for ever,
also once another one takes its path or it is unplugged.
-/

namespace SerialBridge

/-- What one write call of a script does. -/
inductive WriteStep where
  /-- It takes at most so many bytes. -/
  | take (most : Nat)
  /-- It fails. -/
  | fail (e : IoError)
  deriving DecidableEq, Repr

/-- What a device does wrong. -/
structure Faults where
  /-- Write calls fail. -/
  writeError : Option IoError := none
  /-- Flushing fails. -/
  flushError : Option IoError := none
  /-- No second channel for reading can be had. -/
  cloneError : Option IoError := none
  /-- Waiting input cannot be dropped. -/
  clearError : Option IoError := none
  /-- The device cannot tell how much input waits. -/
  availableError : Option IoError := none
  /-- Read calls fail. -/
  readError : Option IoError := none
  /-- The most bytes a write call takes. -/
  maxWrite : Option Nat := none
  /-- The most bytes a read call gives. -/
  maxRead : Option Nat := none
  /-- What the next write calls do. -/
  script : List WriteStep := []
  /-- The amount of waiting input the device claims, true or not. -/
  claimed : Option Nat := none
  deriving DecidableEq, Repr

/-- A device and the input waiting in it. -/
structure Device where
  /-- The path it was plugged in at. -/
  path : String
  /-- Waiting input. -/
  input : Bytes := []
  /-- What it does wrong. -/
  faults : Faults := {}
  deriving DecidableEq, Repr

namespace Device

/-- One write call: the device after it, and the most bytes it takes, without a
limit if there is none, or its error. -/
def nextWrite (d : Device) : Device × Except IoError (Option Nat) :=
  match d.faults.script with
  | step :: rest =>
    let d := { d with faults := { d.faults with script := rest } }
    match step with
    | .take most => (d, .ok (some most))
    | .fail e => (d, .error e)
  | [] =>
    match d.faults.writeError with
    | some e => (d, .error e)
    | none => (d, .ok d.faults.maxWrite)

/-- What came of writing some bytes: those taken, and the error if not all were. -/
structure Written where
  /-- The bytes that were taken. -/
  accepted : Bytes
  /-- The error, if not all were. -/
  error : Option IoError
  deriving DecidableEq, Repr

/-- A write call that took nothing. -/
def writeZero : IoError :=
  .failed .writeZero "failed to write whole buffer"

/-- Repeats write calls until every byte is taken or one fails for good;
interrupted calls are tried again.  The first argument bounds the calls, and a
device that is still interrupted then has failed. -/
def writeLoop : Nat → Device → Bytes → Device × Written
  | _, d, [] => (d, ⟨[], none⟩)
  | 0, d, _ :: _ => (d, ⟨[], some (.failed .interrupted "interrupted")⟩)
  | n + 1, d, bytes@(_ :: _) =>
    match d.nextWrite with
    | (d, .error e) =>
      if e.kind = .interrupted then writeLoop n d bytes else (d, ⟨[], some e⟩)
    | (d, .ok none) => (d, ⟨bytes, none⟩)
    | (d, .ok (some 0)) => (d, ⟨[], some writeZero⟩)
    | (d, .ok (some most)) =>
      let (d, w) := writeLoop n d (bytes.drop most)
      (d, { w with accepted := bytes.take most ++ w.accepted })

/-- Writes all of some bytes, then flushes. -/
def writeAll (d : Device) (bytes : Bytes) : Device × Written :=
  let (d, w) := writeLoop (d.faults.script.length + bytes.length) d bytes
  match w.error with
  | some _ => (d, w)
  | none => (d, { w with error := d.faults.flushError })

/-- Drops the waiting input, unless that fails. -/
def clearInput (d : Device) : Device :=
  if d.faults.clearError.isSome then d else { d with input := [] }

/-- How much input the device says is waiting. -/
def available (d : Device) : Except IoError Nat :=
  match d.faults.availableError with
  | some e => .error e
  | none => .ok (d.faults.claimed.getD d.input.length)

/-- One read call for at most so many bytes. -/
def read (d : Device) (most : Nat) : Device × Except IoError Bytes :=
  match d.faults.readError with
  | some e => (d, .error e)
  | none =>
    let n := match d.faults.maxRead with
      | some limit => min limit most
      | none => most
    ({ d with input := d.input.drop n }, .ok (d.input.take n))

end Device

/-- An attempt to open a port. -/
structure Attempt where
  /-- The path tried. -/
  path : String
  /-- The baud rate asked for. -/
  baudRate : UInt32
  /-- Whether the port opened. -/
  opened : Bool
  deriving DecidableEq, Repr

/-- The surroundings of a bridge. -/
structure Bench where
  /-- What discovery looks at. -/
  machine : Machine := {}
  /-- All devices there ever were, by number. -/
  devices : List Device := []
  /-- The number of the device at each path that has one. -/
  plugged : List (String × Nat) := []
  deriving DecidableEq, Repr

namespace Bench

/-- The device at a path. -/
def deviceAt? (b : Bench) (path : String) : Option Nat :=
  b.plugged.lookup path

/-- The latest device that was plugged in at a path, there or not. -/
def deviceOf? (b : Bench) (path : String) : Option Nat :=
  (b.devices.reverse.findIdx? (·.path == path)).map (b.devices.length - 1 - ·)

/-- Plugs in a new device; one that is at the path already gives it up. -/
def plug (b : Bench) (path : String) (faults : Faults) : Bench :=
  { b with
    devices := b.devices ++ [{ path, faults }]
    plugged := (path, b.devices.length) :: b.plugged.filter (·.1 != path) }

/-- Unplugs whatever is at a path. -/
def unplug (b : Bench) (path : String) : Bench :=
  { b with plugged := b.plugged.filter (·.1 != path) }

/-- The entry of `/dev` that a path names, if it names one. -/
def entryOf (path : String) : Option String :=
  match "/dev/".toList.isPrefixOf? path.toList with
  | some rest => if rest.contains '/' then none else some (String.ofList rest)
  | none => none

/-- Plugs the device of a path into the machine, or a new one if there never was
any: its entry of `/dev` appears as well. -/
def attach (b : Bench) (path : String) : Bench :=
  let b := match b.deviceOf? path with
    | some device => { b with plugged := (path, device) :: b.plugged.filter (·.1 != path) }
    | none => b.plug path {}
  { b with machine := { b.machine with entries := b.machine.entries ++ (entryOf path).toList } }

/-- Takes whatever is at a path out of the machine, together with its entry of
`/dev`. -/
def detach (b : Bench) (path : String) : Bench :=
  let b := b.unplug path
  { b with machine := { b.machine with
      entries := b.machine.entries.filter fun e => some e != entryOf path } }

/-- Changes one device. -/
def modify (b : Bench) (device : Nat) (f : Device → Device) : Bench :=
  { b with devices := b.devices.modify device f }

/-- Gives a device more input. -/
def feed (b : Bench) (device : Nat) (bytes : Bytes) : Bench :=
  b.modify device fun d => { d with input := d.input ++ bytes }

/-- Tries paths in order up to the first that has a device: the attempts, and the
path and device found. -/
def tryPaths (b : Bench) (baudRate : UInt32) :
    List String → List Attempt × Option (String × Nat)
  | [] => ([], none)
  | path :: paths =>
    match b.deviceAt? path with
    | some device => ([⟨path, baudRate, true⟩], some (path, device))
    | none =>
      let (attempts, found) := tryPaths b baudRate paths
      (⟨path, baudRate, false⟩ :: attempts, found)

/-- The paths that stand for a list of candidates: an empty list means every port
of the machine. -/
def pathsFor (b : Bench) (candidates : List String) : List String :=
  if candidates.isEmpty then (Port.discover b.machine).map PortInfo.name else candidates

/-- Looks for the first candidate that opens: the attempts, and the path and device
found. -/
def probe (b : Bench) (candidates : List String) (baudRate : UInt32) :
    List Attempt × Except LinkError (String × Nat) :=
  let paths := b.pathsFor candidates
  let (attempts, found) := b.tryPaths baudRate paths
  match found with
  | some hit => (attempts, .ok hit)
  | none => (attempts, .error (.portUnavailable paths))

end Bench

end SerialBridge
