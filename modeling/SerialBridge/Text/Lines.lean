/-! # Lines of a text

A line ends at a line feed, and the last one may go without.  Typed input drops
the terminator of each line, which is a line feed with at most one carriage
return before it.
-/

namespace SerialBridge.Text

/-- Cuts a list at every mark, giving one more part than there are marks. -/
def splitAt [BEq α] (mark : α) : List α → List (List α)
  | [] => [[]]
  | x :: xs =>
    if x == mark then [] :: splitAt mark xs
    else
      match splitAt mark xs with
      | [] => [[x]]
      | part :: parts => (x :: part) :: parts

/-- How many lines a text has; the empty text has none, and a line feed at the
end begins no further line. -/
def lineCount (s : String) : Nat :=
  let feeds := s.toList.count '\n'
  match s.toList.getLast? with
  | none => 0
  | some c => if c == '\n' then feeds else feeds + 1

/-- The list without one mark at its end. -/
def dropMark [BEq α] (mark : α) (xs : List α) : List α :=
  match xs.getLast? with
  | some x => if x == mark then xs.dropLast else xs
  | none => xs

end SerialBridge.Text
