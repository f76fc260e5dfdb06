import Typings.Text.CodePoint
import Typings.Text.Utf8

/-!
Percent-encoding. Reading turns each `%` with two hexadecimal digits into an octet, leaves other percent signs alone,
and takes the octets of the whole text as UTF-8. Writing keeps unreserved characters and those named as safe.
-/

namespace Typings.Text.Percent

/-- The octets that a text stands for: those of its characters, with escapes replaced. -/
def octets : List Char → List Nat
  | [] => []
  | '%' :: a :: b :: rest =>
    match hexDigit? a, hexDigit? b with
    | some m, some n => (16 * m + n) :: octets rest
    | _, _ => 0x25 :: octets (a :: b :: rest)
  | c :: rest => Utf8.encodeChar c ++ octets rest

/-- The text with its escapes read. -/
def decode (cs : List Char) : List Char := Utf8.decode (octets cs)

/-- Letters and digits of ASCII, low line, full stop, hyphen and tilde. -/
def isUnreserved (c : Char) : Bool := c.isAlphanum || c = '_' || c = '.' || c = '-' || c = '~'

/-- The escape of an octet. -/
def escape (b : Nat) : List Char := ['%', upperHex (b / 16), upperHex (b % 16)]

/-- Write one character. -/
def encodeChar (safe : List Char) (c : Char) : List Char :=
  if isUnreserved c || safe.contains c then [c] else (Utf8.encodeChar c).flatMap escape

/-- Write a text; unreserved characters and those of `safe` stand for themselves. -/
def encode (safe : List Char) (cs : List Char) : List Char := cs.flatMap (encodeChar safe)

end Typings.Text.Percent
