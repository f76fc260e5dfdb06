import Typings.Yaml.Fault

/-!
A place in a YAML text: what is still to be read, with the number of characters before it, the line and the column. The
end of the text reads as the null character, which no YAML text holds.
-/

namespace Typings.Yaml

/-! ### Classes of characters -/

/-- The character that stands for the end of the text. -/
def theEnd : Char := Char.ofNat 0

/-- Line feed, carriage return, next line, line separator, paragraph separator. -/
def isBreak (c : Char) : Bool := [0xA, 0xD, 0x85, 0x2028, 0x2029].contains c.toNat

/-- A line break or the end. -/
def isLineEnd (c : Char) : Bool := c = theEnd || isBreak c

/-- A line break, the end or a space. -/
def isGap (c : Char) : Bool := c = ' ' || isLineEnd c

/-- A line break, the end, a space or a tab. -/
def isBlank (c : Char) : Bool := c = '\t' || isGap c

/-- A square bracket, a brace or a comma, the characters that part the entries of flow collections. -/
def isFlowMark (c : Char) : Bool := [0x5B, 0x5D, 0x7B, 0x7D, 0x2C].contains c.toNat

/-- Characters of the names of anchors and directives. -/
def isNameChar (c : Char) : Bool := c.isAlphanum || c = '-' || c = '_'

/-- Characters that a YAML text may hold. -/
def isAllowed (c : Char) : Bool :=
  let n := c.toNat
  n = 0x9 || n = 0xA || n = 0xD || (0x20 ≤ n && n ≤ 0x7E) || n = 0x85 || (0xA0 ≤ n && n ≤ 0xFFFD) || 0x10000 ≤ n

/-! ### Places -/

/-- A place in a text. -/
structure Cursor where
  /-- What is still to be read. -/
  rest : List Char
  /-- The number of characters before it. -/
  index : Nat
  /-- The number of lines before it. -/
  line : Nat
  /-- The number of characters before it on its line. -/
  column : Nat

namespace Cursor

/-- The start of a text. -/
def start (cs : List Char) : Cursor := ⟨cs, 0, 0, 0⟩

/-- The character at a distance. -/
def peek (c : Cursor) (n : Nat) : Char := (c.rest[n]?).getD theEnd

/-- The character at the place. -/
def head (c : Cursor) : Char := c.rest.head?.getD theEnd

/-- The next place. A carriage return ends its line only if no line feed comes after it, and a byte order mark takes up
no column. -/
def next (c : Cursor) : Cursor :=
  match c.rest with
  | [] => c
  | ch :: rest =>
    let ends := isBreak ch && (ch ≠ '\r' || rest.head? ≠ some '\n')
    { rest
      index := c.index + 1
      line := if ends then c.line + 1 else c.line
      column := if ends then 0 else if ch = Char.ofNat 0xFEFF then c.column else c.column + 1 }

/-- The place after so many characters. -/
def advance : Nat → Cursor → Cursor
  | 0, c => c
  | n + 1, c => advance n c.next

/-- The characters from the place on that are of a class. -/
def run (c : Cursor) (p : Char → Bool) : List Char := c.rest.takeWhile p

/-- The place after the characters of a class. -/
def skip (c : Cursor) (p : Char → Bool) : Cursor := c.advance (c.run p).length

/-- The place after a line break, and the break as it counts: a line feed, or one of the separators. There is none if no
line ends here. -/
def lineBreak (c : Cursor) : List Char × Cursor :=
  if !isBreak c.head then ([], c)
  else if c.head = '\r' && c.peek 1 = '\n' then (['\n'], c.advance 2)
  else if c.head.toNat = 0x2028 || c.head.toNat = 0x2029 then ([c.head], c.next)
  else (['\n'], c.next)

/-- Whether a line of three equal characters, the mark of a document, is here. -/
def hasMark (c : Cursor) (mark : Char) : Bool :=
  c.head = mark && c.peek 1 = mark && c.peek 2 = mark && isBlank (c.peek 3)

/-- Whether a document starts or ends here. -/
def hasDocumentMark (c : Cursor) : Bool := c.hasMark '-' || c.hasMark '.'

end Cursor

end Typings.Yaml
