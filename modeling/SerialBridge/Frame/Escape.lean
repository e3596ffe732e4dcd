import SerialBridge.Text.Utf8

/-! # Newlines inside a frame

A frame is one line, so a body cannot hold a line feed.  `escape` writes the
private-use character U+E000 in its place and leaves carriage returns out;
`unescape` reads the line feeds back.  `escapedLength` predicts the length of
the escaped body without building it.
-/

namespace SerialBridge

/-- The byte that ends a line. -/
def lineFeed : UInt8 := 0x0A

/-- The byte that a frame never holds and a line may end with. -/
def carriageReturn : UInt8 := 0x0D

/-- U+E000 in UTF-8, which stands for a line feed inside a body. -/
def placeholder : Bytes := [0xEE, 0x80, 0x80]

/-- What a body byte becomes on the wire. -/
def escapeByte (b : UInt8) : Bytes :=
  if b = lineFeed then placeholder
  else if b = carriageReturn then []
  else [b]

/-- The body as it goes on the wire. -/
def escape (body : Bytes) : Bytes :=
  body.flatMap escapeByte

/-- The body with a line feed for every placeholder, read from the left. -/
def unescape : Bytes → Bytes
  | 0xEE :: 0x80 :: 0x80 :: rest => lineFeed :: unescape rest
  | b :: rest => b :: unescape rest
  | [] => []

/-- The length of the escaped body. -/
def escapedLength (body : Bytes) : Nat :=
  body.foldr (fun b n => (if b = lineFeed then 3 else if b = carriageReturn then 0 else 1) + n) 0

end SerialBridge
