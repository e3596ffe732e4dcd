import SerialBridge.Json.Quotation

/-! # Reading a JSON text

The readers take what they read off the front of a text, and the first fault in
reading order is the one reported.  `nextItem`, `nextField`, `closeList` and
`closeObject` are the steps inside brackets that every kind of list and record
shares.  `readValue` reads a whole document with a bounded depth of nesting;
`skipValue` passes over one that nobody asks for, checking no more than its form
and at any depth.
-/

namespace SerialBridge.Json

/-- Levels of nesting that a text may have. -/
def maxLevels : Nat := 127

/-- Blanks between the parts of a document. -/
def isSpace (c : Char) : Bool :=
  c == ' ' || c == '\n' || c == '\t' || c == '\r'

/-- The text from its first character that is no blank. -/
def skipSpace (cs : List Char) : List Char :=
  cs.dropWhile isSpace

/-- Passes over the rest of a literal. -/
def readLiteral : List Char → List Char → Except Error (List Char)
  | [], cs => .ok cs
  | _ :: _, [] => .error .endInValue
  | e :: es, c :: cs => if c = e then readLiteral es cs else .error .expectedLiteral

/-- Whether a number starts with this character. -/
def startsNumber (c : Char) : Bool :=
  c == '-' || isDigit c

/-- Goes to the next item of a list, if there is one; the end of the list stays
unread. -/
def nextItem (first : Bool) (cs : List Char) : Except Error (Option (List Char)) :=
  match skipSpace cs with
  | [] => .error .endInList
  | ']' :: _ => .ok none
  | ',' :: rest =>
    if first then .ok (some (',' :: rest))
    else
      match skipSpace rest with
      | [] => .error .endInValue
      | ']' :: _ => .error .trailingComma
      | rest => .ok (some rest)
  | rest => if first then .ok (some rest) else .error .expectedListEnd

/-- Goes to the next field name of an object, after its quote, if there is one;
the end of the object stays unread. -/
def nextField (first : Bool) (cs : List Char) : Except Error (Option (List Char)) :=
  match skipSpace cs with
  | [] => .error .endInObject
  | '\x7d' :: _ => .ok none
  | c :: rest =>
    if first then
      if c = '"' then .ok (some rest) else .error .keyNotString
    else if c = ',' then
      match skipSpace rest with
      | [] => .error .endInValue
      | '"' :: rest => .ok (some rest)
      | '\x7d' :: _ => .error .trailingComma
      | _ :: _ => .error .keyNotString
    else .error .expectedObjectEnd

/-- Passes over the end of a list after its last wanted item. -/
def closeList (cs : List Char) : Except Error (List Char) :=
  match skipSpace cs with
  | [] => .error .endInList
  | ']' :: rest => .ok rest
  | ',' :: rest =>
    match skipSpace rest with
    | ']' :: _ => .error .trailingComma
    | _ => .error .trailingText
  | _ :: _ => .error .trailingText

/-- Passes over the end of an object after its last field. -/
def closeObject (cs : List Char) : Except Error (List Char) :=
  match skipSpace cs with
  | [] => .error .endInObject
  | '\x7d' :: rest => .ok rest
  | ',' :: _ => .error .trailingComma
  | _ :: _ => .error .trailingText

/-- Passes over the colon after a field name. -/
def readColon (cs : List Char) : Except Error (List Char) :=
  match skipSpace cs with
  | [] => .error .endInObject
  | ':' :: rest => .ok rest
  | _ :: _ => .error .expectedColon

/-- Reads the items of a list up to its end, which stays unread; `n` bounds their
number. -/
def readItems (item : Reader α) : Nat → Bool → Reader (List α)
  | 0, _, _ => .error .expectedValue
  | n + 1, first, cs => do
    match ← nextItem first cs with
    | none => .ok ([], cs)
    | some cs =>
      let (x, cs) ← item cs
      let (xs, cs) ← readItems item n false cs
      .ok (x :: xs, cs)

/-- Reads the fields of an object up to its end, which stays unread; `n` bounds
their number. -/
def readFields (value : Reader α) : Nat → Bool → Reader (List (String × α))
  | 0, _, _ => .error .expectedValue
  | n + 1, first, cs => do
    match ← nextField first cs with
    | none => .ok ([], cs)
    | some cs =>
      let (name, cs) ← readString cs
      let cs ← readColon cs
      let (x, cs) ← value cs
      let (xs, cs) ← readFields value n false cs
      .ok ((name, x) :: xs, cs)

/-- Reads a document with so many levels of nesting left. -/
def readValue (levels : Nat) : Reader Json
  | cs => do
    match skipSpace cs with
    | [] => .error .endInValue
    | 'n' :: rest =>
      let rest ← readLiteral ['u', 'l', 'l'] rest
      .ok (.null, rest)
    | 't' :: rest =>
      let rest ← readLiteral ['r', 'u', 'e'] rest
      .ok (.bool true, rest)
    | 'f' :: rest =>
      let rest ← readLiteral ['a', 'l', 's', 'e'] rest
      .ok (.bool false, rest)
    | '"' :: rest =>
      let (s, rest) ← readString rest
      .ok (.string s, rest)
    | '[' :: rest =>
      match levels with
      | 0 => .error .tooDeep
      | n + 1 =>
        let (items, rest) ← readItems (readValue n) (rest.length + 1) true rest
        let rest ← closeList rest
        .ok (.array items, rest)
    | '\x7b' :: rest =>
      match levels with
      | 0 => .error .tooDeep
      | n + 1 =>
        let (fields, rest) ← readFields (readValue n) (rest.length + 1) true rest
        let rest ← closeObject rest
        .ok (.object fields, rest)
    | c :: rest =>
      if startsNumber c then do
        let (n, rest) ← readNumber (c :: rest)
        .ok (.number n, rest)
      else .error .expectedValue

/-- The kinds of bracket a passed-over value can stand in. -/
inductive Bracket where
  /-- Square brackets. -/
  | list
  /-- Braces. -/
  | object
  deriving DecidableEq, Repr

/-- What the text ends in when it ends inside a bracket. -/
def Bracket.endError : Bracket → Error
  | .list => .endInList
  | .object => .endInObject

/-- What is wrong when neither a comma nor the end follows a value. -/
def Bracket.separatorError : Bracket → Error
  | .list => .expectedListEnd
  | .object => .expectedObjectEnd

/-- The character that closes a bracket. -/
def Bracket.closing : Bracket → Char
  | .list => ']'
  | .object => '\x7d'

/-- Passes over a field name and its colon; in a list there is nothing to pass
over. -/
def skipName : Bracket → List Char → Except Error (List Char)
  | .list, cs => .ok cs
  | .object, cs =>
    match skipSpace cs with
    | [] => .error .endInObject
    | '"' :: rest => do
      let rest ← skipString rest
      readColon rest
    | _ :: _ => .error .keyNotString

/-- Passes over a value that is not a list or an object, or over the bracket that
opens one, which is then told. -/
def skipStart (cs : List Char) : Except Error (Option Bracket × List Char) :=
  match skipSpace cs with
  | [] => .error .endInValue
  | 'n' :: rest => (readLiteral ['u', 'l', 'l'] rest).map (none, ·)
  | 't' :: rest => (readLiteral ['r', 'u', 'e'] rest).map (none, ·)
  | 'f' :: rest => (readLiteral ['a', 'l', 's', 'e'] rest).map (none, ·)
  | '"' :: rest => (skipString rest).map (none, ·)
  | '[' :: rest => .ok (some .list, rest)
  | '\x7b' :: rest => .ok (some .object, rest)
  | c :: rest =>
    if startsNumber c then (skipNumber (c :: rest)).map (none, ·) else .error .expectedValue

/-- Passes over what is left of the brackets under way, innermost first: each turn
passes over a separator, a closing bracket or a value.  `fresh` says that the
innermost bracket has just been opened; `n` bounds the number of turns. -/
def skipRest : Nat → List Bracket → Bool → List Char → Except Error (List Char)
  | _, [], _, cs => .ok cs
  | 0, _ :: _, _, _ => .error .expectedValue
  | n + 1, b :: outer, fresh, cs =>
    match skipSpace cs with
    | [] => .error b.endError
    | c :: rest => do
      if c = b.closing then skipRest n outer false rest
      else if fresh || c == ',' then
        let inner ← skipName b (if fresh then c :: rest else rest)
        match ← skipStart inner with
        | (none, cs) => skipRest n (b :: outer) false cs
        | (some opened, cs) => skipRest n (opened :: b :: outer) true cs
      else .error b.separatorError

/-- Passes over a value that nobody asks for. -/
def skipValue (cs : List Char) : Except Error (List Char) := do
  match ← skipStart cs with
  | (none, cs) => .ok cs
  | (some b, cs) => skipRest (cs.length + 1) [b] true cs

/-- Reads a whole text as one document. -/
def parse (text : String) : Except Error Json := do
  let (doc, rest) ← readValue maxLevels text.toList
  if (skipSpace rest).isEmpty then .ok doc else .error .trailingText

end SerialBridge.Json
