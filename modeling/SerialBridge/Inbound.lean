import SerialBridge.Frame
import SerialBridge.Text.Blank

/-! # Lines from the device

The device echoes every command it receives and reports in lines of its own.
`Inbound.decode` tells the two apart: a line that begins with the command tag is
an echo, a blank line is nothing, and all else is a status text with the blanks
at its end removed.
-/

namespace SerialBridge

/-- What a line from the device means. -/
inductive Inbound where
  /-- A command coming back. -/
  | echo
  /-- A report for the clients. -/
  | status (text : String)
  deriving DecidableEq, Repr

namespace Inbound

/-- The meaning of a raw line, or nothing for a blank one. -/
def decode (raw : Bytes) : Option Inbound :=
  let text := Text.trimEnd (Utf8.decodeLossy raw)
  if text.isEmpty then none
  else if Frame.commandTag.toList.isPrefixOf text.toList then some .echo
  else some (.status text)

/-- The report a line holds, if it is one. -/
def report? (raw : Bytes) : Option String :=
  match decode raw with
  | some (.status text) => some text
  | some .echo | none => none

end Inbound

end SerialBridge
