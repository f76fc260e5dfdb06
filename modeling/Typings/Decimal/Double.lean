/-!
Doubles as numbers of the form `± m · 2 ^ q`, read off their 64 bits, and the double nearest to a decimal numeral. All
arithmetic is exact.
-/

namespace Typings

/-- A double, held as its bits. -/
structure Double where
  /-- Sign, eleven bits of exponent and fifty-two bits of significand. -/
  bits : UInt64
  deriving DecidableEq

namespace Double

/-- Whether the sign bit is set. -/
def isNegative (x : Double) : Bool := Nat.pow 2 63 ≤ x.bits.toNat

/-- The biased exponent. -/
def biased (x : Double) : Nat := x.bits.toNat / Nat.pow 2 52 % Nat.pow 2 11

/-- The fraction bits. -/
def fraction (x : Double) : Nat := x.bits.toNat % Nat.pow 2 52

/-- Whether it is neither an infinity nor a NaN. -/
def isFinite (x : Double) : Bool := x.biased ≠ 2047

/-- The number `m` of `± m · 2 ^ q`. -/
def significand (x : Double) : Nat := if x.biased = 0 then x.fraction else Nat.pow 2 52 + x.fraction

/-- The number `q` of `± m · 2 ^ q`. -/
def exponent (x : Double) : Int := if x.biased = 0 then -1074 else x.biased - 1075

/-- Whether it is zero, of either sign. -/
def isZero (x : Double) : Bool := x.significand = 0

/-- `n · 2 ^ e` as numerator and denominator. -/
def scaled (n : Nat) (e : Int) : Nat × Nat := if 0 ≤ e then (n * Nat.pow 2 e.toNat, 1) else (n, Nat.pow 2 (-e).toNat)

/-- Whether it is equal to a whole number. -/
def equalsInt (x : Double) (n : Int) : Bool :=
  let (num, den) := scaled x.significand x.exponent
  x.isFinite && (if x.isNegative then -(num : Int) else (num : Int)) = n * den

/-- Equality of the numbers: the two zeros are equal. -/
def equals (x y : Double) : Bool := x = y || (x.isZero && y.isZero)

/-- The double with this sign and these exponent and fraction bits. -/
def ofFields (negative : Bool) (low : Nat) : Double := ⟨UInt64.ofNat (low + if negative then Nat.pow 2 63 else 0)⟩

/-- A quotient rounded to the nearest whole number, a half to the even one. -/
def roundQuotient (num den : Nat) : Nat :=
  let q := num / den
  let r := num % den
  if 2 * r < den then q else if den < 2 * r then q + 1 else if q % 2 = 0 then q else q + 1

/-- The exponent and fraction bits of the double nearest to `num / den`, where both are positive. -/
def nearest (num den : Nat) : Nat :=
  let guess : Int := (num.log2 : Int) - den.log2 - 53
  let quotient (q : Int) : Nat × Nat := if 0 ≤ q then (num, den * Nat.pow 2 q.toNat) else (num * Nat.pow 2 (-q).toNat, den)
  let big := let (a, b) := quotient guess; Nat.pow 2 53 * b ≤ a
  let q := max (-1074) (if big then guess + 1 else guess)
  let m := let (a, b) := quotient q; roundQuotient a b
  let low := if m < Nat.pow 2 52 then m else (q + 1075).toNat * Nat.pow 2 52 + (m - Nat.pow 2 52)
  min low (2047 * Nat.pow 2 52)

/-- The double nearest to `± digits · 10 ^ exp`. -/
def ofDecimal (negative : Bool) (digits : Nat) (exp : Int) : Double :=
  let size : Int := (digits.log2 : Int) + 4 * exp
  if digits = 0 ∨ ((digits.log2 : Int) + 3 * exp < -1200 ∧ exp < 0) then ofFields negative 0
  else if 0 ≤ exp then
    if 2048 < size - exp then ofFields negative (2047 * Nat.pow 2 52)
    else ofFields negative (nearest (digits * Nat.pow 10 exp.toNat) 1)
  else ofFields negative (nearest digits (Nat.pow 10 (-exp).toNat))

/-- The double nearest to a whole number. -/
def ofInt (n : Int) : Double := ofDecimal (n < 0) n.natAbs 0

end Double

end Typings
