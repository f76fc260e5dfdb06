/-!
White space: the characters that count as blank in names and comments, and the cutting of text at them.
-/

namespace Typings.Text

/-- The code points of white space, among them the four information separators, next line and no-break space. -/
def blanks : List Nat :=
  [0x9, 0xA, 0xB, 0xC, 0xD, 0x1C, 0x1D, 0x1E, 0x1F, 0x20, 0x85, 0xA0, 0x1680,
    0x2000, 0x2001, 0x2002, 0x2003, 0x2004, 0x2005, 0x2006, 0x2007, 0x2008, 0x2009, 0x200A,
    0x2028, 0x2029, 0x202F, 0x205F, 0x3000]

/-- Whether a character is white space. -/
def isBlank (c : Char) : Bool := blanks.contains c.toNat

/-- Drop the white space at the end. -/
def trimEnd (cs : List Char) : List Char := (cs.reverse.dropWhile isBlank).reverse

/-- Drop the white space at both ends. -/
def trim (cs : List Char) : List Char := trimEnd (cs.dropWhile isBlank)

/-- The maximal runs of characters that are not white space. -/
def words (cs : List Char) : List (List Char) := (cs.splitOnP isBlank).filter (· ≠ [])

end Typings.Text
