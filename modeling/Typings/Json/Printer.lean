import Typings.Json.Literal
import Typings.Json.Value

/-!
The text of a JSON value on one line: `", "` between items, `": "` after names, strings in ASCII. A value for which JSON
has no kind is written as the string of its text.
-/

namespace Typings.Json

mutual

/-- The characters of a value's text. -/
def chars : Json → List Char
  | null => "null".toList
  | bool b => if b then "true".toList else "false".toList
  | num n => n.text.toList
  | str s => Literal.encode s.toList
  | extra x => Literal.encode x.text.toList
  | arr xs => '[' :: itemChars xs ++ [']']
  | obj fs => Char.ofNat 0x7B :: fieldChars fs ++ [Char.ofNat 0x7D]

/-- The items of an array. -/
def itemChars : List Json → List Char
  | [] => []
  | [x] => chars x
  | x :: y :: rest => chars x ++ ',' :: ' ' :: itemChars (y :: rest)

/-- The members of an object. -/
def fieldChars : List (String × Json) → List Char
  | [] => []
  | [(k, v)] => Literal.encode k.toList ++ ':' :: ' ' :: chars v
  | (k, v) :: e :: rest => Literal.encode k.toList ++ ':' :: ' ' :: chars v ++ ',' :: ' ' :: fieldChars (e :: rest)

end

/-- The text of a value. -/
def text (v : Json) : String := String.ofList v.chars

end Typings.Json
