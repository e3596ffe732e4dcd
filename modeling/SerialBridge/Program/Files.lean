import SerialBridge.Error
import SerialBridge.Text.Lines
import SerialBridge.Text.Utf8

/-! # Files that the program reads

The program takes whatever reads files for it (`FileReader`).  A directory is one
such reader: a path is walked part by part, a name has to exist, everything but the
last part has to be a directory, one dot stays and two dots go up.  Above the
directory and in absolute paths there are directories and nothing else.
-/

namespace SerialBridge

/-- What reading the file at a path gives. -/
abbrev FileReader := String → Except IoError Bytes

/-- The text in the file at a path. -/
def FileReader.text (read : FileReader) (path : String) : Except IoError String := do
  match Utf8.decode? (← read path) with
  | some text => .ok text
  | none => .error (.failed (.other "InvalidData") "stream did not contain valid UTF-8")

/-- The files below the directory the program runs in, by path. -/
structure Directory where
  /-- Paths, relative to the directory, and contents. -/
  files : List (String × Bytes) := []
  deriving DecidableEq, Repr

namespace Directory

/-- The parts of a path between its slashes. -/
def parts (path : String) : List String :=
  (Text.splitAt '/' path.toList).map String.ofList

/-- Where a walk stands. -/
inductive Place where
  /-- At a directory, given by the names that lead to it. -/
  | directory (names : List String)
  /-- At a file. -/
  | file (content : Bytes)
  /-- At a directory outside. -/
  | outside
  deriving DecidableEq, Repr

/-- What the names that lead to something lead to. -/
def lookup (d : Directory) (names : List String) : Option Place :=
  match (d.files.map fun f => (parts f.1, f.2)).lookup names with
  | some content => some (.file content)
  | none =>
    if d.files.any fun f => names.isPrefixOf (parts f.1) then some (.directory names) else none

/-- One part of a path. -/
def step (d : Directory) (place : Place) (part : String) : Except IoError Place :=
  match place with
  | .file _ => .error (.system 20)
  | .outside =>
    if part = "" ∨ part = "." ∨ part = ".." then .ok .outside else .error (.system 2)
  | .directory names =>
    if part = "" ∨ part = "." then .ok place
    else if part = ".." then
      if names.isEmpty then .ok .outside else .ok (.directory names.dropLast)
    else if 255 < part.utf8ByteSize then .error (.system 36)
    else
      match d.lookup (names ++ [part]) with
      | some place => .ok place
      | none => .error (.system 2)

/-- The bytes at a path. -/
def read (d : Directory) : FileReader := fun path => do
  if path.toList.contains '\x00' then
    .error (.failed (.other "InvalidInput") "file name contained an unexpected NUL byte")
  else if path.isEmpty then .error (.system 2)
  else if 4096 ≤ path.utf8ByteSize then .error (.system 36)
  else
    let start := if path.toList.head? = some '/' then .outside else .directory []
    match ← (parts path).foldlM d.step start with
    | .file content => .ok content
    | .directory _ | .outside => .error (.system 21)

/-- The name of the file a path leads to, if it ends in a name. -/
def fileName? (path : String) : Option String :=
  match ((parts path).filter fun p => p != "" && p != ".").getLast? with
  | some name => if name = ".." then none else some name
  | none => none

end Directory

end SerialBridge
