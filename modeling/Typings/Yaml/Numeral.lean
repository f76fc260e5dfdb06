import Typings.Decimal.Arithmetic
import Typings.Decimal.Numeral
import Typings.Text.CodePoint
import Typings.Yaml.Fault

/-!
Numbers in YAML. Plain scalars are numbers by their form: a leading zero makes a whole number octal, `0b` and `0x` binary
and hexadecimal, low lines may part digits, and parts between colons are in base sixty. A scalar that is tagged
as a number may also have other forms, as long as they can be read.
-/

namespace Typings.Yaml.Numeral

/-- A numeral without its sign, and whether the sign is a minus. -/
def unsigned : List Char → Bool × List Char
  | '-' :: rest => (true, rest)
  | '+' :: rest => (false, rest)
  | cs => (false, cs)

/-! ### Forms -/

/-- Whether a text is not empty and made of characters of a class and low lines. -/
def isRun (p : Char → Bool) (cs : List Char) : Bool := cs ≠ [] && cs.all fun c => p c || c = '_'

/-- Whether a text is a number in low lines and digits that starts with a digit. -/
def isDigits (cs : List Char) : Bool := isRun (·.isDigit) cs && (cs.head?.map (·.isDigit)).getD false

/-- Whether a text is a part of a number in base sixty. -/
def isSixtieth : List Char → Bool
  | [a] => a.isDigit
  | [a, b] => a.isDigit && a.toNat < 0x36 && b.isDigit
  | _ => false

/-- Whether a text is a whole number in base ten or sixty; it does not start with a zero. -/
def isPlainInt (cs : List Char) : Bool :=
  match cs.splitOn ':' with
  | first :: more => isDigits first && first.head? ≠ some '0' && more.all isSixtieth
  | [] => false

/-- Whether a text is a whole number. -/
def isInt (cs : List Char) : Bool :=
  match (unsigned cs).2 with
  | ['0'] => true
  | '0' :: 'b' :: rest => isRun (fun c => c = '0' || c = '1') rest
  | '0' :: 'x' :: rest => isRun (fun c => (Text.hexDigit? c).isSome) rest
  | '0' :: rest => isRun (fun c => c.isDigit && c.toNat < 0x38) rest
  | body => isPlainInt body

/-- A numeral in two parts: what comes before the exponent, and the exponent with its sign. -/
def cutExponent (cs : List Char) : List Char × List Char :=
  let (front, back) := cs.span fun c => c ≠ 'e' && c ≠ 'E'
  (front, back.drop 1)

/-- Whether an exponent is missing, or a sign with digits. -/
def isExponent (hasOne : Bool) : List Char → Bool
  | '+' :: rest | '-' :: rest => rest ≠ [] && rest.all (·.isDigit)
  | _ => !hasOne

/-- Whether a text is a word for something that is not a finite number. -/
def isWord (cs : List Char) : Bool :=
  [".inf", ".Inf", ".INF"].contains (String.ofList (unsigned cs).2) ||
    [".nan", ".NaN", ".NAN"].contains (String.ofList cs)

/-- Whether a text is a double. -/
def isFloat (cs : List Char) : Bool :=
  let body := (unsigned cs).2
  let (front, exponent) := cutExponent body
  let hasExponent := front.length < body.length
  let (whole, rest) := front.span (· ≠ '.')
  let part := rest.drop 1
  let partFits := part.all fun c => c.isDigit || c = '_'
  isWord cs || (rest ≠ [] && match whole.splitOn ':' with
    | [[]] => body.length = cs.length && isDigits part && isExponent hasExponent exponent
    | [first] => isDigits first && partFits && isExponent hasExponent exponent
    | first :: more => isDigits first && more.all isSixtieth && partFits && !hasExponent
    | [] => false)

/-! ### Values -/

/-- A text without its low lines. -/
def cleaned (cs : List Char) : List Char := cs.filter (· ≠ '_')

/-- The value of a digit in bases up to sixteen; decimal digits of all scripts count. -/
def digit? (c : Char) : Option Nat := (Text.digit? c).or (Text.hexDigit? c)

/-- A numeral without the sign of its base. -/
def withoutBase (base : Nat) : List Char → List Char
  | '0' :: c :: rest =>
    if (base = 2 && c.toLower = 'b') || (base = 8 && c.toLower = 'o') || (base = 16 && c.toLower = 'x') then rest
    else '0' :: c :: rest
  | cs => cs

/-- The whole number that a text stands for in a base: white space may surround it, a sign may stand before it, and then
the sign of the base. -/
def wholeIn (base : Nat) (cs : List Char) : Except Misfit Int :=
  let (negative, body) := unsigned (Double.trimmed cs)
  let digits := (withoutBase base body).map digit?
  if digits = [] || digits.any fun d => !d.any (· < base) then .error (.numeral base (String.ofList cs))
  else if base = 10 && Text.maxDigits < digits.length then .error (.tooLong digits.length)
  else
    let size := digits.foldl (fun n d => base * n + d.getD 0) 0
    .ok (if negative then -(size : Int) else size)

/-- The whole number that a text stands for. -/
def intOf (text : String) : Except Misfit Int := do
  let (negative, body) := unsigned (cleaned text.toList)
  let size ← match body with
    | '0' :: 'b' :: rest => wholeIn 2 rest
    | '0' :: 'x' :: rest => wholeIn 16 rest
    | '0' :: _ => wholeIn 8 body
    | [] => .error .empty
    | _ => (body.splitOn ':').foldlM (fun n part => (wholeIn 10 part).map (60 * n + ·)) 0
  return if negative then -size else size

/-- A decimal digit of any script as the ASCII digit of its value. -/
def plainDigit (c : Char) : Char :=
  match Text.digit? c with
  | some d => Char.ofNat (0x30 + d)
  | none => c

/-- The double that a text stands for: white space may surround it. -/
def doubleIn (cs : List Char) : Except Misfit Double :=
  match Double.ofChars? ((Double.trimmed cs).map plainDigit) with
  | some x => .ok x
  | none => .error (.double (String.ofList cs))

/-- Add parts in base sixty to a sum, the lowest one, which counts `base`, first. Every product and every sum is
rounded. -/
def sixties (base : Nat) (sum : Double) : List Double → Double
  | [] => sum
  | part :: rest => sixties (60 * base) (sum.add (part.mul (.ofInt base))) rest

/-- The double that a text stands for. -/
def doubleOf (text : String) : Except Misfit Double := do
  let cs := (cleaned text.toList).map (·.toLower)
  let (negative, body) := unsigned cs
  let size ←
    if cs = [] then .error .empty
    else if body = ".inf".toList then .ok (Double.infinity false)
    else if body = ".nan".toList then .ok Double.notANumber
    else if body.contains ':' then ((body.splitOn ':').mapM doubleIn).map fun parts => sixties 1 (.ofInt 0) parts.reverse
    else doubleIn body
  return if negative then size.negate else size

end Typings.Yaml.Numeral
