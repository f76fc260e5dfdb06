import Typings.Decimal.Double

/-!
Sums and products of doubles: the exact result, rounded once.
-/

namespace Typings.Double

/-- The size of a finite double as numerator and denominator. -/
def ratio (x : Double) : Nat × Nat := scaled x.significand x.exponent

/-- The numerator with the sign of the double. -/
def signedNumerator (x : Double) : Int := if x.isNegative then -(x.ratio.1 : Int) else x.ratio.1

/-- The double nearest to a quotient; `negative` is the sign of a zero. -/
def ofRatio (negative : Bool) (num : Int) (den : Nat) : Double :=
  if num = 0 then ofFields negative 0 else ofFields (num < 0) (nearest num.natAbs den)

/-- The same number with the other sign. -/
def negate (x : Double) : Double := ofFields (!x.isNegative) (x.bits.toNat % Nat.pow 2 63)

/-- The sum, where at most one of the two is infinite. -/
def add (x y : Double) : Double :=
  if !x.isFinite then x
  else if !y.isFinite then y
  else ofRatio (x.isNegative && y.isNegative)
    (x.signedNumerator * y.ratio.2 + y.signedNumerator * x.ratio.2) (x.ratio.2 * y.ratio.2)

/-- The product, where `y` is finite and not zero. -/
def mul (x y : Double) : Double :=
  if !x.isFinite then if y.isNegative then x.negate else x
  else ofRatio (x.isNegative != y.isNegative) (x.signedNumerator * y.signedNumerator) (x.ratio.2 * y.ratio.2)

end Typings.Double
