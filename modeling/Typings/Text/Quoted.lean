import Typings.Text.Printable

/-!
Text in quotation marks, for people to read. Single quotation marks are used, unless the text holds a single one and
no double one. Characters that would not be seen are written as escapes of two, four or eight hexadecimal digits.
-/

namespace Typings.Text

/-- One character between quotation marks `mark`. -/
def quotedChar (mark : Char) (c : Char) : List Char :=
  if c = '\\' ∨ c = mark then ['\\', c]
  else if c = '\n' then ['\\', 'n']
  else if c = '\r' then ['\\', 'r']
  else if c = '\t' then ['\\', 't']
  else if isPrintable c then [c]
  else if c.toNat < 0x100 then '\\' :: 'x' :: hexText 2 c.toNat
  else if c.toNat < 0x10000 then '\\' :: 'u' :: hexText 4 c.toNat
  else '\\' :: 'U' :: hexText 8 c.toNat

/-- A text in quotation marks. -/
def quoted (s : String) : String :=
  let cs := s.toList
  let mark := if cs.contains '\'' && !cs.contains '"' then '"' else '\''
  String.ofList (mark :: cs.flatMap (quotedChar mark) ++ [mark])

end Typings.Text
