import Typings.Moment
import Typings.Text.Digit
import Typings.Text.Quoted

/-!
What can be wrong with a YAML text.
-/

namespace Typings.Yaml

/-- Why the text of a scalar stands for no value of its kind. -/
inductive Misfit where
  /-- It is no whole number in a base. -/
  | numeral (base : Nat) (text : String)
  /-- It is a whole number of more digits than are read. -/
  | tooLong (digits : Nat)
  /-- It is no double. -/
  | double (text : String)
  /-- It has nothing where a number is due. -/
  | empty
  /-- It is no word for a truth value. -/
  | truth (text : String)
  /-- It is not of the form of a timestamp. -/
  | timestamp
  /-- It is a timestamp of a day or a time that does not exist. -/
  | moment (fault : MomentFault)

/-- The words for a misfit. -/
def Misfit.message : Misfit → String
  | numeral base text => "invalid literal for int() with base " ++ Number.intText base ++ ": " ++
      String.ofList ((Text.quoted text).toList.take 200)
  | tooLong digits => Number.tooLong digits
  | double text => "could not convert string to float: " ++ Text.quoted text
  | empty => "string index out of range"
  | truth text => Text.quoted text
  | timestamp => "'NoneType' object has no attribute 'groupdict'"
  | moment fault => fault.message

/-- Why a text is not read. -/
inductive Fault where
  /-- It holds a character that no YAML text may hold. -/
  | character
  /-- Something in it is no token. -/
  | token
  /-- Its tokens do not fit together. -/
  | layout
  /-- It names an anchor that is not there, names one twice, or holds a second document. -/
  | anchor
  /-- A part of it stands for no value. -/
  | value
  /-- A scalar of it stands for no value of its kind. -/
  | scalar (misfit : Misfit)

end Typings.Yaml
