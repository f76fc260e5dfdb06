import Typings.Text.Blank

/-!
Hexadecimal numerals and compact tables of code points. A table is a text of words: a first code point in
hexadecimal, `+` and a count for a run, and after `:` the code points it stands for, parted by full stops.
-/

namespace Typings.Text

/-- The value of a hexadecimal digit. -/
def hexDigit? (c : Char) : Option Nat :=
  if '0' ≤ c ∧ c ≤ '9' then some (c.toNat - 0x30)
  else if 'a' ≤ c ∧ c ≤ 'f' then some (c.toNat - 0x57)
  else if 'A' ≤ c ∧ c ≤ 'F' then some (c.toNat - 0x37)
  else none

/-- The number that hexadecimal digits denote; other characters count as zeros. -/
def ofHex (cs : List Char) : Nat := cs.foldl (fun n c => 16 * n + (hexDigit? c).getD 0) 0

/-- The digit of a number below sixteen, in lower case. -/
def lowerHex (n : Nat) : Char := Char.ofNat (if n < 10 then 0x30 + n else 0x57 + n)

/-- The digit of a number below sixteen, in upper case. -/
def upperHex (n : Nat) : Char := Char.ofNat (if n < 10 then 0x30 + n else 0x37 + n)

/-- The last `width` hexadecimal digits of a number, in lower case. -/
def hexText : (width : Nat) → Nat → List Char
  | 0, _ => []
  | width + 1, n => hexText width (n / 16) ++ [lowerHex (n % 16)]

/-- Successive code points with what they stand for. -/
structure Run where
  /-- The first code point. -/
  first : Nat
  /-- How many code points there are. -/
  count : Nat
  /-- What the first one stands for; the others go up with it. -/
  image : List Nat

namespace Run

/-- Read one word of a table. -/
def read (word : List Char) : Run :=
  let (key, image) := word.span (· ≠ ':')
  let (first, count) := key.span (· ≠ '+')
  { first := ofHex first
    count := if count = [] then 1 else ofHex (count.drop 1)
    image := if image.length < 2 then [] else ((image.drop 1).splitOn '.').map ofHex }

/-- Read a table. -/
def readAll (text : String) : List Run := (words text.toList).map read

/-- Whether a code point lies in the run. -/
def holds (r : Run) (n : Nat) : Bool := r.first ≤ n && n < r.first + r.count

end Run

end Typings.Text
