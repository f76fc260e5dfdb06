import Typings.Text.Blank
import Typings.Text.Decomposition

/-!
Names in declarations: which texts are identifiers, and the type name that a segment of an address gives.
-/

namespace Typings.Name

/-- Characters that may start an identifier. -/
def isStart (c : Char) : Bool := c.isAlpha || c = '_' || c = '$'

/-- Characters that may stand in an identifier. -/
def isPart (c : Char) : Bool := c.isAlphanum || c = '_' || c = '$'

/-- Whether a text is an identifier. -/
def isWord : List Char → Bool
  | [] => false
  | c :: rest => isStart c && rest.all isPart

/-- Whether a text is an identifier, or one with a line feed after it. -/
def isIdentifier (name : String) : Bool :=
  let cs := name.toList
  isWord cs || (cs.getLast? = some '\n' && isWord cs.dropLast)

/-- Put the first character of every alphanumeric run into upper case and drop the one separator before it; `first` says
that nothing came before. -/
def capitalized (first : Bool) : List Char → List Char
  | [] => []
  | [c] => [if first then c.toUpper else c]
  | c :: d :: rest =>
    if c.isAlphanum then (if first then c.toUpper else c) :: capitalized false (d :: rest)
    else if d.isAlphanum then d.toUpper :: capitalized false rest
    else c :: capitalized false (d :: rest)

/-- A text between dollar signs: only letters, digits and low lines stay. -/
def joinedWords (cs : List Char) : List Char := (capitalized true cs).filter fun c => c.isAlphanum || c = '_'

/-- Parts with a dollar sign between them. -/
def dollared : List (List Char) → List Char
  | [] => []
  | [p] => p
  | p :: q :: rest => p ++ '$' :: dollared (q :: rest)

/-- The characters of a type name. -/
def typeNameChars (cs : List Char) : List Char :=
  let body := dollared (((Text.unaccented (Text.trim cs)).splitOn '$').map joinedWords)
  match body with
  | c :: _ => if c.isDigit then '_' :: body else body
  | [] => []

/-- The type name of a segment: accents go, words are joined with upper-case initials, dollar signs stay, and a digit
does not come first. -/
def typeName (name : String) : String := String.ofList (typeNameChars name.toList)

end Typings.Name
