import Typings.Json.Value
import Typings.Text.Quoted

/-!
Values as they show inside messages and comments: a string stands for itself at the top and is quoted inside arrays and
objects; the constants are `None`, `True` and `False`.
-/

namespace Typings.Json

mutual

/-- A value inside an array or an object. -/
def shown : Json → String
  | null => "None"
  | bool b => if b then "True" else "False"
  | num n => n.text
  | str s => Text.quoted s
  | extra x => x.shown
  | arr xs => "[" ++ ", ".intercalate (shownItems xs) ++ "]"
  | obj fs => "\x7b" ++ ", ".intercalate (shownFields fs) ++ "\x7d"

/-- The items of an array. -/
def shownItems : List Json → List String
  | [] => []
  | x :: rest => shown x :: shownItems rest

/-- The members of an object. -/
def shownFields : List (String × Json) → List String
  | [] => []
  | (k, v) :: rest => (Text.quoted k ++ ": " ++ shown v) :: shownFields rest

end

/-- A value in a message. -/
def display : Json → String
  | str s => s
  | extra x => x.text
  | v => shown v

end Typings.Json
