/-!
Octets written in base 64: four characters stand for three octets. Characters outside the alphabet are passed over, and
what comes after a complete padding does not count.
-/

namespace Typings.Text.Base64

/-- The six bits that a character stands for. -/
def value? (c : Char) : Option Nat :=
  if c.isUpper then some (c.toNat - 0x41)
  else if c.isLower then some (c.toNat - 0x61 + 26)
  else if c.isDigit then some (c.toNat - 0x30 + 52)
  else if c = '+' then some 62
  else if c = '/' then some 63
  else none

/-- Decode from the middle of a group: `held` are its characters so far, `bits` what they stand for, and `pads` how many
signs of padding came after them. -/
def decodeFrom (held bits pads : Nat) : List Char → Option (List Nat)
  | [] => if held = 0 then some [] else none
  | c :: rest =>
    if c = '=' then
      if held < 2 then decodeFrom held bits pads rest
      else if 4 ≤ held + pads + 1 then some []
      else decodeFrom held bits (pads + 1) rest
    else match value? c with
      | none => decodeFrom held bits pads rest
      | some v =>
        match held with
        | 0 => decodeFrom 1 v 0 rest
        | 1 => (decodeFrom 2 (v % 16) 0 rest).map ((bits * 4 + v / 16) :: ·)
        | 2 => (decodeFrom 3 (v % 4) 0 rest).map ((bits * 16 + v / 4) :: ·)
        | _ => (decodeFrom 0 0 0 rest).map ((bits * 64 + v) :: ·)

/-- The octets that a text stands for. -/
def decode (cs : List Char) : Option (List Nat) := decodeFrom 0 0 0 cs

end Typings.Text.Base64
