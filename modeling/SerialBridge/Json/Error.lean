import SerialBridge.Json.Basic
import SerialBridge.Text.Quoted

/-! # Why a document is refused

A text can be refused because it ends too early, because it breaks the syntax,
or because it is well written but does not say what is asked for.  Each cause is
a constructor; `Error.category` gives the kind and `Error.message` the wording.
-/

namespace SerialBridge.Json

/-- What stands where something else was wanted. -/
inductive Found where
  /-- The literal `null`. -/
  | null
  /-- A truth value. -/
  | bool (b : Bool)
  /-- A number. -/
  | number (n : Number)
  /-- A text. -/
  | string (s : String)
  /-- A sequence. -/
  | sequence
  /-- A map. -/
  | map
  /-- The bare name of an alternative that carries a value. -/
  | unitVariant
  deriving DecidableEq, Repr

/-- The wording for what stands there. -/
def Found.text : Found → String
  | .null => "null"
  | .bool true => "boolean `true`"
  | .bool false => "boolean `false`"
  | .number (.integer n) => "integer `" ++ (Number.integer n).text ++ "`"
  | .number (.real bits) => "floating point `" ++ (Number.real bits).text ++ "`"
  | .string s => "string " ++ Text.quote s
  | .sequence => "sequence"
  | .map => "map"
  | .unitVariant => "unit variant"

/-- What a document in memory is, for a message. -/
def found : Json → Found
  | .null => .null
  | .bool b => .bool b
  | .number n => .number n
  | .string s => .string s
  | .array _ => .sequence
  | .object _ => .map

/-- A cause of refusal. -/
inductive Error where
  /-- The text ends where a value has to come. -/
  | endInValue
  /-- The text ends inside a string. -/
  | endInString
  /-- The text ends inside an object. -/
  | endInObject
  /-- The text ends inside a list. -/
  | endInList
  /-- No value starts here. -/
  | expectedValue
  /-- A literal is misspelt. -/
  | expectedLiteral
  /-- A field name does not start with a quote. -/
  | keyNotString
  /-- No colon after a field name. -/
  | expectedColon
  /-- Neither a comma nor the end after a field. -/
  | expectedObjectEnd
  /-- Neither a comma nor the end after an item. -/
  | expectedListEnd
  /-- A comma before the end. -/
  | trailingComma
  /-- More text after the end. -/
  | trailingText
  /-- Misplaced or missing digits. -/
  | invalidNumber
  /-- A number beyond every binary64 number. -/
  | numberOutOfRange
  /-- An unknown escape. -/
  | invalidEscape
  /-- The second half of a pair without the first, or a first half before something
  that is no second half. -/
  | loneSurrogate
  /-- The first half of a pair before something that is no escape. -/
  | unfinishedPair
  /-- A control character inside a string. -/
  | controlCharacter
  /-- Too many levels of nesting. -/
  | tooDeep
  /-- A value of another kind than wanted. -/
  | invalidType (found : Found) (wanted : String)
  /-- A value of the right kind outside its range. -/
  | invalidValue (found : Found) (wanted : String)
  /-- A sequence of the wrong length. -/
  | invalidLength (length : Nat) (wanted : String)
  /-- A name that is none of those allowed. -/
  | unknownVariant (name : String) (allowed : List String)
  /-- A field that has to be there is not. -/
  | missingField (name : String)
  /-- A field stands twice. -/
  | duplicateField (name : String)
  /-- A text that does not have the form it should. -/
  | malformed (reason : String)
  deriving DecidableEq, Repr

/-- The kinds of cause. -/
inductive Category where
  /-- The text ends too early. -/
  | eof
  /-- The text breaks the syntax. -/
  | grammar
  /-- The text says something else than wanted. -/
  | data
  deriving DecidableEq, Repr

namespace Error

/-- Names between back quotes, joined by commas. -/
def ticked (names : List String) : String :=
  ", ".intercalate (names.map fun n => "`" ++ n ++ "`")

/-- The wording of a choice of names. -/
def choiceText : List String → String
  | [] => "there are no variants"
  | [a] => "expected " ++ ticked [a]
  | [a, b] => "expected " ++ ticked [a] ++ " or " ++ ticked [b]
  | names => "expected one of " ++ ticked names

/-- The kind of a cause. -/
def category : Error → Category
  | .endInValue | .endInString | .endInObject | .endInList => .eof
  | .expectedValue | .expectedLiteral | .keyNotString | .expectedColon | .expectedObjectEnd
  | .expectedListEnd | .trailingComma | .trailingText | .invalidNumber | .numberOutOfRange
  | .invalidEscape | .loneSurrogate | .unfinishedPair | .controlCharacter | .tooDeep => .grammar
  | .invalidType .. | .invalidValue .. | .invalidLength .. | .unknownVariant ..
  | .missingField _ | .duplicateField _ | .malformed _ => .data

/-- The wording of a cause. -/
def message : Error → String
  | .endInValue => "EOF while parsing a value"
  | .endInString => "EOF while parsing a string"
  | .endInObject => "EOF while parsing an object"
  | .endInList => "EOF while parsing a list"
  | .expectedValue => "expected value"
  | .expectedLiteral => "expected ident"
  | .keyNotString => "key must be a string"
  | .expectedColon => "expected `:`"
  | .expectedObjectEnd => "expected `,` or `\x7d`"
  | .expectedListEnd => "expected `,` or `]`"
  | .trailingComma => "trailing comma"
  | .trailingText => "trailing characters"
  | .invalidNumber => "invalid number"
  | .numberOutOfRange => "number out of range"
  | .invalidEscape => "invalid escape"
  | .loneSurrogate => "lone leading surrogate in hex escape"
  | .unfinishedPair => "unexpected end of hex escape"
  | .controlCharacter => "control character (\\u0000-\\u001F) found while parsing a string"
  | .tooDeep => "recursion limit exceeded"
  | .invalidType f wanted => "invalid type: " ++ f.text ++ ", expected " ++ wanted
  | .invalidValue f wanted => "invalid value: " ++ f.text ++ ", expected " ++ wanted
  | .invalidLength n wanted => "invalid length " ++ toString n ++ ", expected " ++ wanted
  | .unknownVariant name allowed =>
    "unknown variant `" ++ name ++ "`, " ++ choiceText allowed
  | .missingField name => "missing field `" ++ name ++ "`"
  | .duplicateField name => "duplicate field `" ++ name ++ "`"
  | .malformed reason => reason

end Error

end SerialBridge.Json
