/-! # Blank characters and trimming

A character is blank when it has the Unicode property `White_Space`.  Trimming
takes blanks off one end of a text or off both and touches nothing else.
-/

namespace SerialBridge.Text

/-- The property `White_Space`. -/
def isBlank (c : Char) : Bool :=
  let n := c.toNat
  (0x09 ≤ n && n ≤ 0x0D) || n == 0x20 || n == 0x85 || n == 0xA0 || n == 0x1680
    || (0x2000 ≤ n && n ≤ 0x200A) || n == 0x2028 || n == 0x2029 || n == 0x202F
    || n == 0x205F || n == 0x3000

/-- The list without what a test accepts at its end. -/
def dropEnd (p : α → Bool) (xs : List α) : List α :=
  (xs.reverse.dropWhile p).reverse

/-- The text without the blanks at its end. -/
def trimEnd (s : String) : String :=
  String.ofList (dropEnd isBlank s.toList)

/-- The text without the blanks at either end. -/
def trim (s : String) : String :=
  String.ofList (dropEnd isBlank (s.toList.dropWhile isBlank))

/-- Whether nothing but blanks is in the text. -/
def isBlankText (s : String) : Bool :=
  s.toList.all isBlank

end SerialBridge.Text
