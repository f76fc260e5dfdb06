import Typings.Decimal.Double

/-!
The fewest decimal digits that read back as a given double, and their layout as a numeral.

For each number of digits the two neighbours of the value on that decimal grid are tried; the first grid with a point
that reads back wins, of two such points the nearer, and at the same distance the even one.
-/

namespace Typings

namespace Double

/-- The reals that round to a positive double `m · 2 ^ q`, as bounds in units of `2 ^ (q - 2)`. -/
structure Interval where
  /-- Lower end. -/
  low : Nat
  /-- Upper end. -/
  high : Nat
  /-- Whether the ends belong to it. -/
  closed : Bool

/-- The interval of a positive double: half way to its neighbours, the lower one being nearer below a power of two. -/
def interval (x : Double) : Interval :=
  let m := x.significand
  { low := if x.fraction = 0 ∧ 1 < x.biased then 4 * m - 1 else 4 * m - 2
    high := 4 * m + 2
    closed := m % 2 = 0 }

/-- Whether `d · 10 ^ e` lies in the interval of `x`. -/
def readsBack (x : Double) (d : Nat) (e : Int) : Bool :=
  let i := x.interval
  let q := x.exponent - 2
  -- compare `d · 10 ^ e` with `bound · 2 ^ q` after clearing negative powers
  let left := d * Nat.pow 10 e.toNat * Nat.pow 2 (-q).toNat
  let right (bound : Nat) := bound * Nat.pow 2 q.toNat * Nat.pow 10 (-e).toNat
  if i.closed then right i.low ≤ left && left ≤ right i.high
  else right i.low < left && left < right i.high

/-- `x / 10 ^ e` as numerator and denominator. -/
def quotient (x : Double) (e : Int) : Nat × Nat :=
  (x.significand * Nat.pow 2 x.exponent.toNat * Nat.pow 10 (-e).toNat, Nat.pow 2 (-x.exponent).toNat * Nat.pow 10 e.toNat)

/-- The decimal exponent of a positive double: `10 ^ e ≤ x < 10 ^ (e + 1)`, found by trying from a lower bound up. -/
def decimalExponent (x : Double) : Int :=
  let start : Int := ((x.significand.log2 : Int) + x.exponent) * 3 / 10 - 2
  let step (e : Int) : Int := let (a, b) := x.quotient (e + 1); if b ≤ a then e + 1 else e
  step (step (step (step (step (step start)))))

/-- The point nearest to `x` that reads back among those with unit `10 ^ e`. -/
def onGrid (x : Double) (e : Int) : Option Nat :=
  let (a, b) := x.quotient e
  let d := a / b
  let lower := x.readsBack d e
  let upper := x.readsBack (d + 1) e
  if lower && upper then
    let r := a % b
    some (if 2 * r < b then d else if b < 2 * r then d + 1 else if d % 2 = 0 then d else d + 1)
  else if lower then some d
  else if upper then some (d + 1)
  else none

/-- Try grids of more and more digits. -/
def search (x : Double) (top : Int) : (fuel : Nat) → (digits : Nat) → Nat × Int
  | 0, digits => let e := top - digits + 1; let (a, b) := x.quotient e; (a / b, e)
  | fuel + 1, digits =>
    let e := top - digits + 1
    match x.onGrid e with
    | some d => (d, e)
    | none => search x top fuel (digits + 1)

/-- Digits and decimal exponent of the shortest numeral of a positive double. -/
def shortest (x : Double) : Nat × Int := search x x.decimalExponent 17 1

/-- Drop the zeros at the end of a list of digits. -/
def trimZeros (ds : List Char) : List Char := (ds.reverse.dropWhile (· = '0')).reverse

/-- The numeral of a double: at least one digit after the point, and from `10 ^ 16` on or below `10 ^ -4` a power of ten
with a sign and two or more digits. -/
def text (x : Double) : String :=
  let sign := if x.isNegative then "-" else ""
  if !x.isFinite then if x.fraction = 0 then sign ++ "Infinity" else "NaN"
  else if x.isZero then sign ++ "0.0"
  else
    let (d, e) := x.shortest
    let all := Nat.toDigits 10 d
    let ds := trimZeros all
    let point : Int := all.length + e
    if point ≤ -4 ∨ 16 < point then
      let p := point - 1
      let exp := Nat.toDigits 10 p.natAbs
      let exp := if exp.length < 2 then '0' :: exp else exp
      let mantissa := match ds with
        | [c] => [c]
        | c :: rest => c :: '.' :: rest
        | [] => []
      sign ++ String.ofList (mantissa ++ 'e' :: (if p < 0 then '-' else '+') :: exp)
    else if point ≤ 0 then
      sign ++ String.ofList ('0' :: '.' :: List.replicate (-point).toNat '0' ++ ds)
    else
      let n := point.toNat
      let whole := ds.take n ++ List.replicate (n - ds.length) '0'
      let part := ds.drop n
      sign ++ String.ofList (whole ++ '.' :: (if part = [] then ['0'] else part))

end Double

end Typings
