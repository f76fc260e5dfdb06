/-!
Lines of a text. A line ends at a line feed, a carriage return (alone or before a line feed), a vertical tab, a form
feed, one of three separators, a next-line character, or a line or paragraph separator.
-/

namespace Typings.Text

/-- The code points that end a line. -/
def lineEnds : List Nat := [0xA, 0xB, 0xC, 0xD, 0x1C, 0x1D, 0x1E, 0x85, 0x2028, 0x2029]

/-- Whether a character ends a line. -/
def isLineEnd (c : Char) : Bool := lineEnds.contains c.toNat

/-- The lines of a text, without their ends; `acc` holds the current line backwards. A text that stops right after
the end of a line has no further empty line. -/
def linesFrom (acc : List Char) : List Char → List (List Char)
  | [] => if acc = [] then [] else [acc.reverse]
  | '\r' :: '\n' :: rest => acc.reverse :: linesFrom [] rest
  | c :: rest => if isLineEnd c then acc.reverse :: linesFrom [] rest else linesFrom (c :: acc) rest

/-- The lines of a text. -/
def lines (s : String) : List String := (linesFrom [] s.toList).map String.ofList

end Typings.Text
