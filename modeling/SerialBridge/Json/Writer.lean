import SerialBridge.Json.Quotation

/-! # Writing a JSON document

The compact form has no blanks.  The indented form puts every item and field on
a line of its own, two blanks deeper than its bracket, with one blank after a
colon; an empty bracket stays on one line.
-/

namespace SerialBridge.Json

/-- Parts with a separator between them. -/
def joinParts (separator : List Char) : List (List Char) → List Char
  | [] => []
  | [p] => p
  | p :: ps => p ++ separator ++ joinParts separator ps

mutual

/-- The compact form of a document. -/
def compactChars : Json → List Char
  | .null => "null".toList
  | .bool true => "true".toList
  | .bool false => "false".toList
  | .number n => n.text.toList
  | .string s => writeString s
  | .array items => '[' :: joinParts [','] (compactItems items) ++ [']']
  | .object fields => '\x7b' :: joinParts [','] (compactFields fields) ++ ['\x7d']

/-- The compact forms of items. -/
def compactItems : List Json → List (List Char)
  | [] => []
  | x :: xs => compactChars x :: compactItems xs

/-- The compact forms of fields. -/
def compactFields : List (String × Json) → List (List Char)
  | [] => []
  | (name, x) :: xs => (writeString name ++ ':' :: compactChars x) :: compactFields xs

end

/-- A document on one line without blanks. -/
def compact (doc : Json) : String :=
  String.ofList doc.compactChars

/-- A new line with so many levels of indentation. -/
def newLine (depth : Nat) : List Char :=
  '\n' :: List.replicate (2 * depth) ' '

/-- Parts inside brackets, each on a line of its own. -/
def bracketed (opening closing : Char) (depth : Nat) (parts : List (List Char)) : List Char :=
  if parts.isEmpty then [opening, closing]
  else
    opening :: newLine (depth + 1) ++ joinParts (',' :: newLine (depth + 1)) parts
      ++ newLine depth ++ [closing]

mutual

/-- The indented form of a document at a depth. -/
def prettyChars (depth : Nat) : Json → List Char
  | .array items => bracketed '[' ']' depth (prettyItems (depth + 1) items)
  | .object fields => bracketed '\x7b' '\x7d' depth (prettyFields (depth + 1) fields)
  | .null => "null".toList
  | .bool true => "true".toList
  | .bool false => "false".toList
  | .number n => n.text.toList
  | .string s => writeString s

/-- The indented forms of items. -/
def prettyItems (depth : Nat) : List Json → List (List Char)
  | [] => []
  | x :: xs => prettyChars depth x :: prettyItems depth xs

/-- The indented forms of fields. -/
def prettyFields (depth : Nat) : List (String × Json) → List (List Char)
  | [] => []
  | (name, x) :: xs =>
    (writeString name ++ ':' :: ' ' :: prettyChars depth x) :: prettyFields depth xs

end

/-- A document with one item or field a line. -/
def pretty (doc : Json) : String :=
  String.ofList (doc.prettyChars 0)

end SerialBridge.Json
