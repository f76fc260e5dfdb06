import Typings.Text.Blank

/-!
Decimal digits of all scripts, and whole numbers written with them.
-/

namespace Typings.Text

/-- The code points of the zeros; each is followed by the other nine digits of its script. -/
def zeros : List Nat :=
  [0x30, 0x660, 0x6F0, 0x7C0, 0x966, 0x9E6, 0xA66, 0xAE6, 0xB66, 0xBE6, 0xC66, 0xCE6, 0xD66, 0xDE6,
    0xE50, 0xED0, 0xF20, 0x1040, 0x1090, 0x17E0, 0x1810, 0x1946, 0x19D0, 0x1A80, 0x1A90, 0x1B50,
    0x1BB0, 0x1C40, 0x1C50, 0xA620, 0xA8D0, 0xA900, 0xA9D0, 0xA9F0, 0xAA50, 0xABF0, 0xFF10,
    0x104A0, 0x10D30, 0x11066, 0x110F0, 0x11136, 0x111D0, 0x112F0, 0x11450, 0x114D0, 0x11650,
    0x116C0, 0x11730, 0x118E0, 0x11950, 0x11C50, 0x11D50, 0x11DA0, 0x16A60, 0x16AC0, 0x16B50,
    0x1D7CE, 0x1D7D8, 0x1D7E2, 0x1D7EC, 0x1D7F6, 0x1E140, 0x1E2F0, 0x1E950, 0x1FBF0]

/-- The value of a decimal digit. -/
def digit? (c : Char) : Option Nat :=
  (zeros.find? fun z => z ≤ c.toNat && c.toNat < z + 10).map (c.toNat - ·)

/-- Whether a character is a decimal digit of some script. -/
def isDigit (c : Char) : Bool := (digit? c).isSome

/-- White space that may surround a whole number: that of `isBlank` without the information separators. -/
def isNumberBlank (c : Char) : Bool := isBlank c && !(0x1C ≤ c.toNat && c.toNat ≤ 0x1F)

/-- The digits of a run in which single low lines may stand between digits; `none` if the run is not of that form.
`due` says that a digit has to come next. -/
def digitRun (due : Bool) : List Char → Option (List Nat)
  | [] => if due then none else some []
  | c :: rest =>
    if c = '_' then if due then none else digitRun true rest
    else match digit? c with
      | some d => (digitRun false rest).map (d :: ·)
      | none => none

/-- The number that a list of decimal digits denotes. -/
def ofDigits (ds : List Nat) : Nat := ds.foldl (fun n d => 10 * n + d) 0

/-- The longest run of digits that is read as a number. -/
def maxDigits : Nat := 4300

/-- Read a whole number: white space around it, a sign, leading zeros and single low lines between digits are
allowed, and digits of any script count. -/
def int? (s : String) : Option Int :=
  let cs := (s.toList.dropWhile isNumberBlank).reverse.dropWhile isNumberBlank |>.reverse
  let (negative, body) := match cs with
    | '-' :: rest => (true, rest)
    | '+' :: rest => (false, rest)
    | _ => (false, cs)
  match digitRun true body with
  | none => none
  | some ds =>
    if ds.length > maxDigits then none
    else some (if negative then -(ofDigits ds : Int) else (ofDigits ds : Int))

end Typings.Text
