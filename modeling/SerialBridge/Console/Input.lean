import SerialBridge.Request
import SerialBridge.Text.Blank

/-! # Lines typed at the console

A typed line is an action when it begins with a slash, a request document when it
begins with a brace, and otherwise a text to send as it stands.  Only the line
breaks at its end are dropped; a blank line says nothing.
-/

namespace SerialBridge

/-- What a typed line asks for. -/
inductive ConsoleInput where
  /-- A request, as any client makes it. -/
  | request (r : Request)
  /-- Upload a file. -/
  | sendFile (path : String)
  /-- List the ports of the machine. -/
  | listPorts
  /-- Show the link and the totals. -/
  | status
  /-- Show what can be typed. -/
  | help
  /-- End the program. -/
  | quit
  deriving DecidableEq, Repr

/-- Why a typed line is refused. -/
inductive ConsoleError where
  /-- The request document is bad. -/
  | invalidRequest (cause : Json.Error)
  /-- An upload without a file. -/
  | missingFile
  /-- An action that does not exist. -/
  | unknownAction (name : String)
  deriving DecidableEq, Repr

/-- The wording of a refusal. -/
def ConsoleError.message : ConsoleError → String
  | .invalidRequest cause => "invalid request: " ++ cause.message
  | .missingFile => "usage: /send <file>"
  | .unknownAction name => "unknown action /" ++ name ++ " (try /help)"

namespace ConsoleInput

/-- A character of a line break. -/
def isBreak (c : Char) : Bool :=
  c == '\r' || c == '\n'

/-- The action of a name, with the argument typed after it. -/
def ofAction (name argument : String) : Except ConsoleError ConsoleInput :=
  if name = "send" then
    if argument.isEmpty then .error .missingFile else .ok (.sendFile argument)
  else if name = "stop" then .ok (.request .stopTransfer)
  else if name = "reconnect" then .ok (.request .reconnect)
  else if name = "ports" then .ok .listPorts
  else if name = "status" then .ok .status
  else if name = "help" then .ok .help
  else if name = "quit" ∨ name = "exit" then .ok .quit
  else .error (.unknownAction name)

/-- What a typed line asks for, if anything. -/
def parse (line : String) : Except ConsoleError (Option ConsoleInput) :=
  let chars := Text.dropEnd isBreak line.toList
  let text := String.ofList chars
  if Text.isBlankText text then .ok none
  else
    match chars with
    | '\x7b' :: _ =>
      match Request.decoder.parse text with
      | .ok r => .ok (some (.request r))
      | .error cause => .error (.invalidRequest cause)
    | '/' :: action =>
      let name := String.ofList (action.takeWhile (· != ' '))
      let argument := Text.trim (String.ofList ((action.dropWhile (· != ' ')).drop 1))
      (ofAction name argument).map some
    | _ => .ok (some (.request (.sendCommand text)))

end ConsoleInput

end SerialBridge
