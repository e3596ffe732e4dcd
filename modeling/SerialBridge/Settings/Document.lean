import SerialBridge.Settings
import SerialBridge.Json.Decoder
import SerialBridge.Json.Writer
import SerialBridge.Text.Utf8

/-! # Settings as a document

The stored form of the settings: a section each for the link, the uploads and the
reader.  Every field may be left out of the document and then has its default.
`Settings.store` writes the indented document; `Settings.load` reads one back,
given the bytes of a file.
-/

namespace SerialBridge

open Json

namespace Mode

/-- The names of the modes. -/
def options : List (String × Mode) :=
  [("single_shot", .singleShot), ("paced", .paced), ("auto", .auto)]

/-- The name of a mode. -/
def name : Mode → String
  | .singleShot => "single_shot"
  | .paced => "paced"
  | .auto => "auto"

/-- Reads a mode. -/
def decoder : Decoder Mode :=
  Decoder.choice options

end Mode

namespace Strategy

/-- The names of the strategies. -/
def options : List (String × Strategy) :=
  [("single_shot", .singleShot), ("paced", .paced)]

/-- The name of a strategy. -/
def name : Strategy → String
  | .singleShot => "single_shot"
  | .paced => "paced"

/-- Reads a strategy. -/
def decoder : Decoder Strategy :=
  Decoder.choice options

end Strategy

namespace LinkSettings

/-- The fields of the link section. -/
def record : Record LinkSettings where
  label := "struct LinkSettings"
  start := {}
  fields :=
    [.of "candidates" (.list .string) (fun v s => { s with candidates := v }) .allowed,
     .of "baud_rate" .uint32 (fun v s => { s with baudRate := v }) .allowed,
     .of "settle_ms" .uint64 (fun v s => { s with settleMs := v }) .allowed]

/-- Reads the link section. -/
def decoder : Decoder LinkSettings :=
  record.decoder

/-- The link section as a document. -/
def toJson (s : LinkSettings) : Json :=
  .object
    [("candidates", .array (s.candidates.map .string)),
     ("baud_rate", .nat s.baudRate.toNat),
     ("settle_ms", .nat s.settleMs.toNat)]

end LinkSettings

namespace TransferSettings

/-- The fields of the upload section. -/
def record : Record TransferSettings where
  label := "struct TransferConfig"
  start := {}
  fields :=
    [.of "mode" Mode.decoder (fun v s => { s with mode := v }) .allowed,
     .of "blob_ceiling" .size (fun v s => { s with blobCeiling := v }) .allowed,
     .of "chunk_size" .size (fun v s => { s with chunkSize := v }) .allowed,
     .of "frame_delay_ms" .uint64 (fun v s => { s with frameDelayMs := v }) .allowed]

/-- Reads the upload section. -/
def decoder : Decoder TransferSettings :=
  record.decoder

/-- The upload section as a document. -/
def toJson (s : TransferSettings) : Json :=
  .object
    [("mode", .string s.mode.name),
     ("blob_ceiling", .nat s.blobCeiling.toNat),
     ("chunk_size", .nat s.chunkSize.toNat),
     ("frame_delay_ms", .nat s.frameDelayMs.toNat)]

end TransferSettings

namespace ReaderSettings

/-- The fields of the reader section. -/
def record : Record ReaderSettings where
  label := "struct ReaderConfig"
  start := {}
  fields :=
    [.of "idle_poll_ms" .uint64 (fun v s => { s with idlePollMs := v }) .allowed,
     .of "input_poll_ms" .uint64 (fun v s => { s with inputPollMs := v }) .allowed,
     .of "error_backoff_ms" .uint64 (fun v s => { s with errorBackoffMs := v }) .allowed]

/-- Reads the reader section. -/
def decoder : Decoder ReaderSettings :=
  record.decoder

/-- The reader section as a document. -/
def toJson (s : ReaderSettings) : Json :=
  .object
    [("idle_poll_ms", .nat s.idlePollMs.toNat),
     ("input_poll_ms", .nat s.inputPollMs.toNat),
     ("error_backoff_ms", .nat s.errorBackoffMs.toNat)]

end ReaderSettings

/-- Why stored settings could not be loaded. -/
inductive LoadError where
  /-- The file is no text. -/
  | notText
  /-- The text is no settings document. -/
  | refused (cause : Json.Error)
  deriving DecidableEq, Repr

/-- The wording of a failure to load. -/
def LoadError.message : LoadError → String
  | .notText => "stream did not contain valid UTF-8"
  | .refused cause => cause.message

namespace Settings

/-- The sections of the document. -/
def record : Record Settings where
  label := "struct BridgeConfig"
  start := {}
  fields :=
    [.of "link" LinkSettings.decoder (fun v s => { s with link := v }) .allowed,
     .of "transfer" TransferSettings.decoder (fun v s => { s with transfer := v }) .allowed,
     .of "reader" ReaderSettings.decoder (fun v s => { s with reader := v }) .allowed]

/-- Reads the whole document. -/
def decoder : Decoder Settings :=
  record.decoder

/-- The settings as a document. -/
def toJson (s : Settings) : Json :=
  .object
    [("link", s.link.toJson), ("transfer", s.transfer.toJson), ("reader", s.reader.toJson)]

/-- The text of the stored document. -/
def store (s : Settings) : String :=
  s.toJson.pretty

/-- The settings that a file holds. -/
def load (content : Bytes) : Except LoadError Settings :=
  match Utf8.decode? content with
  | none => .error .notText
  | some text =>
    match decoder.parse text with
    | .error cause => .error (.refused cause)
    | .ok s => .ok s

end Settings

end SerialBridge
