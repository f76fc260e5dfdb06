import Typings.Text.CodePoint

/-!
String literals. Writing uses ASCII only: other characters become escapes of four hexadecimal digits, those above U+FFFF
two of them. Reading undoes this.
-/

namespace Typings.Json.Literal

/-- An escape of four hexadecimal digits. -/
def unitEscape (n : Nat) : List Char := '\\' :: 'u' :: Text.hexText 4 n

/-- One character inside a literal. -/
def encodeChar (c : Char) : List Char :=
  if c = '"' then ['\\', '"']
  else if c = '\\' then ['\\', '\\']
  else if 0x20 ≤ c.toNat ∧ c.toNat ≤ 0x7E then [c]
  else if c = '\n' then ['\\', 'n']
  else if c = '\r' then ['\\', 'r']
  else if c = '\t' then ['\\', 't']
  else if c.toNat = 0x8 then ['\\', 'b']
  else if c.toNat = 0xC then ['\\', 'f']
  else if c.toNat < 0x10000 then unitEscape c.toNat
  else unitEscape (0xD800 + (c.toNat - 0x10000) / 1024) ++ unitEscape (0xDC00 + (c.toNat - 0x10000) % 1024)

/-- The literal of a text. -/
def encode (cs : List Char) : List Char := '"' :: cs.flatMap encodeChar ++ ['"']

/-- The character after a backslash, for escapes of one character. -/
def simpleEscape? (c : Char) : Option Char :=
  if c = '"' ∨ c = '\\' ∨ c = '/' then some c
  else if c = 'b' then some (Char.ofNat 0x8)
  else if c = 'f' then some (Char.ofNat 0xC)
  else if c = 'n' then some '\n'
  else if c = 'r' then some '\r'
  else if c = 't' then some '\t'
  else none

/-- The number that four hexadecimal digits at the start of a text denote. -/
def unit? (cs : List Char) : Option Nat :=
  match cs with
  | a :: b :: c :: d :: _ =>
    match Text.hexDigit? a, Text.hexDigit? b, Text.hexDigit? c, Text.hexDigit? d with
    | some w, some x, some y, some z => some (4096 * w + 256 * x + 16 * y + z)
    | _, _, _, _ => none
  | _ => none

/-- The character of a high and a low surrogate. -/
def pair (high low : Nat) : Char := Char.ofNat (0x10000 + (high - 0xD800) * 1024 + (low - 0xDC00))

/-- Whether a unit is a high surrogate. -/
def isHigh (n : Nat) : Bool := 0xD800 ≤ n && n < 0xDC00

/-- Whether a unit is a low surrogate. -/
def isLow (n : Nat) : Bool := 0xDC00 ≤ n && n < 0xE000

/-- The character of a unit; a surrogate without its partner is U+FFFD. -/
def unitChar (n : Nat) : Char := if isHigh n || isLow n then Char.ofNat 0xFFFD else Char.ofNat n

end Typings.Json.Literal
