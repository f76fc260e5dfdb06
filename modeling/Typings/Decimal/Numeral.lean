import Typings.Decimal.Double
import Typings.Text.Digit

/-!
Doubles in texts that people write: a sign, digits on at least one side of a point, an exponent, or a word for infinity.
White space around them and single low lines inside them go away.
-/

namespace Typings.Double

/-- The number that ASCII digits stand for. -/
def digitsValue (ds : List Char) : Nat := Text.ofDigits (ds.map (·.toNat - 0x30))

/-- A sign and what comes after it. -/
def signed : List Char → Bool × List Char
  | '-' :: rest => (true, rest)
  | '+' :: rest => (false, rest)
  | cs => (false, cs)

/-- The exponent that a text is, if it is one; a missing one is zero. -/
def exponent? : List Char → Option Int
  | [] => some 0
  | c :: rest =>
    let (negative, ds) := signed rest
    if (c = 'e' || c = 'E') && ds ≠ [] && ds.all (·.isDigit)
    then some (if negative then -(digitsValue ds : Int) else digitsValue ds)
    else none

/-- The infinity of a sign. -/
def infinity (negative : Bool) : Double := ofFields negative (2047 * Nat.pow 2 52)

/-- A double that is not a number. -/
def notANumber : Double := ofFields false (2047 * Nat.pow 2 52 + Nat.pow 2 51)

/-- The double that a text without white space and low lines stands for. -/
def ofChars? (cs : List Char) : Option Double :=
  let (negative, body) := signed cs
  let word := String.ofList (body.map (·.toLower))
  if word = "inf" || word = "infinity" then some (infinity negative)
  else if word = "nan" then some notANumber
  else
    let (whole, rest) := body.span (·.isDigit)
    let (part, rest) := match rest with
      | '.' :: r => r.span (·.isDigit)
      | r => ([], r)
    if whole = [] && part = [] then none
    else (exponent? rest).map fun e => ofDecimal negative (digitsValue (whole ++ part)) (e - part.length)

/-- A text without its low lines, if they stand one by one and not at its ends. -/
def withoutLowLines? (cs : List Char) : Option (List Char) :=
  let pieces := cs.splitOn '_'
  if 1 < pieces.length && pieces.all (· ≠ []) then some pieces.flatten else none

/-- A text without the white space around it. -/
def trimmed (cs : List Char) : List Char :=
  ((cs.dropWhile Text.isNumberBlank).reverse.dropWhile Text.isNumberBlank).reverse

/-- The double that a text stands for. -/
def ofText? (text : String) : Option Double :=
  (ofChars? (trimmed text.toList)).or ((withoutLowLines? text.toList).bind ofChars?)

/-- Whether it is a number greater than zero. -/
def isPositive (x : Double) : Bool := !x.isNegative && !x.isZero && (x.isFinite || x.fraction = 0)

end Typings.Double
