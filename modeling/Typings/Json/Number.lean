import Typings.Decimal.Shortest

/-!
Numbers of JSON texts. A numeral with a point or an exponent is a double, any other a whole number of any size; the two
kinds stay apart in text and are compared by value.
-/

namespace Typings

/-- A number, as it was written. -/
inductive Number where
  /-- A whole number. -/
  | int (value : Int)
  /-- A double. -/
  | double (value : Double)
  deriving DecidableEq

namespace Number

/-- Equality of the numbers. -/
def equals : Number → Number → Bool
  | int m, int n => m = n
  | int m, double y => y.equalsInt m
  | double x, int n => x.equalsInt n
  | double x, double y => x.equals y

/-- Whether it is zero. -/
def isZero : Number → Bool
  | int n => n = 0
  | double x => x.isZero

/-- A whole number in decimal digits. -/
def intText (n : Int) : String :=
  let ds := String.ofList (Nat.toDigits 10 n.natAbs)
  if n < 0 then "-" ++ ds else ds

/-- The words for a numeral of more digits than are read. -/
def tooLong (digits : Nat) : String :=
  "Exceeds the limit (4300 digits) for integer string conversion: value has " ++ intText digits ++
    " digits; use sys.set_int_max_str_digits() to increase the limit"

/-- The numeral of a number. -/
def text : Number → String
  | int n => intText n
  | double x => x.text

end Number

end Typings
