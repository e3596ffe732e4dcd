import SerialBridge.Text.Lines

/-! # Ports of the machine

Ports come from two sources: those the operating system reports, perhaps with
what it knows about the device, and the entries of `/dev` that carry the name of
a serial device.  Discovery lists every name once and orders the names by a key
that puts the likeliest ports first: `ttyACM`, then `ttyUSB`, each by number,
then all others by name.
-/

namespace SerialBridge

/-- What is known about a port. -/
structure PortInfo where
  /-- The name of the port. -/
  name : String
  /-- Vendor number, for a USB device. -/
  vid : Option Nat := none
  /-- Product number, for a USB device. -/
  pid : Option Nat := none
  /-- Product name, where the device gives one. -/
  product : Option String := none
  deriving DecidableEq, Repr

/-- What the operating system says a port hangs on. -/
inductive PortKind where
  /-- A USB device, with its numbers and perhaps a product name. -/
  | usb (vid pid : Nat) (product : Option String)
  /-- Anything else. -/
  | other
  deriving DecidableEq, Repr

/-- A port as the operating system reports it. -/
def PortInfo.ofReport (name : String) : PortKind → PortInfo
  | .usb vid pid product => { name, vid := some vid, pid := some pid, product }
  | .other => { name }

/-- What discovery looks at: the names in `/dev`, and the reported ports. -/
structure Machine where
  /-- The names of the entries of `/dev`. -/
  entries : List String := []
  /-- The ports the operating system reports. -/
  reported : List PortInfo := []
  deriving DecidableEq, Repr

namespace Port

/-- The part of a name after its last slash. -/
def baseName (name : String) : String :=
  String.ofList ((Text.splitAt '/' name.toList).getLastD [])

/-- The greatest number that orders ports, given to names without one. -/
def lastNumber : Nat := UInt64.size - 1

/-- The number that some digits spell, one leading plus sign allowed; nothing if it
does not fit 64 bits. -/
def number? (s : List Char) : Option Nat :=
  let digits := match s with
    | '+' :: rest => rest
    | s => s
  if digits.isEmpty ∨ digits.any fun c => c < '0' || '9' < c then none
  else
    let n := digits.foldl (fun n c => n * 10 + (c.toNat - '0'.toNat)) 0
    if n < UInt64.size then some n else none

/-- A key of the port order: the class of the name, its number, and the name
itself. -/
structure Key where
  /-- Class: 0 for `ttyACM`, 1 for `ttyUSB`, 2 for the rest. -/
  rank : Nat
  /-- Number after the class name. -/
  number : Nat
  /-- The part of the name after its last slash. -/
  base : String
  deriving DecidableEq, Repr

/-- The key of a name. -/
def key (name : String) : Key :=
  let base := baseName name
  match "ttyACM".toList.isPrefixOf? base.toList with
  | some rest => ⟨0, (number? rest).getD lastNumber, base⟩
  | none =>
    match "ttyUSB".toList.isPrefixOf? base.toList with
    | some rest => ⟨1, (number? rest).getD lastNumber, base⟩
    | none => ⟨2, 0, base⟩

/-- Whether a key comes no later than another: by class, then number, then name. -/
def Key.le (a b : Key) : Bool :=
  if a.rank ≠ b.rank then a.rank < b.rank
  else if a.number ≠ b.number then a.number < b.number
  else !(b.base < a.base)

/-- Sorts by the key of a name, keeping the order of equal keys. -/
def sortBy (name : α → String) (xs : List α) : List α :=
  xs.mergeSort fun a b => (key (name a)).le (key (name b))

/-- Adds a port unless its name is there already. -/
def addNew (ports : List PortInfo) (p : PortInfo) : List PortInfo :=
  if ports.any (·.name == p.name) then ports else ports ++ [p]

/-- Whether an entry of `/dev` carries the name of a serial device. -/
def isSerialEntry (entry : String) : Bool :=
  "ttyACM".toList.isPrefixOf entry.toList || "ttyUSB".toList.isPrefixOf entry.toList

/-- The ports found on a machine, each name once, in the order of their keys. -/
def discover (m : Machine) : List PortInfo :=
  let fromEntries := (m.entries.filter isSerialEntry).map fun e => { name := "/dev/" ++ e }
  sortBy PortInfo.name ((m.reported ++ fromEntries).foldl addNew [])

end Port

end SerialBridge
