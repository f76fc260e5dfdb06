import Typings.Moment
import Typings.Text.Quoted

/-!
Values that come from data formats other than JSON, which has no kind for them. Where such a value has to be written as
JSON, its text stands for it.
-/

namespace Typings

/-- A value for which JSON has no kind. -/
inductive Extra where
  /-- A day or a time. -/
  | moment (value : Moment)
  /-- Octets. -/
  | octets (values : List Nat)
  /-- A set; its members are kept as they are shown. -/
  | set (members : List String)
  deriving DecidableEq

namespace Extra

/-- One octet between quotation marks `mark`. -/
def octetChars (mark : Char) (n : Nat) : List Char :=
  if n < 0x7F then Text.quotedChar mark (Char.ofNat n) else '\\' :: 'x' :: Text.hexText 2 n

/-- Octets in quotation marks. -/
def octetText (ns : List Nat) : String :=
  let mark := if ns.contains 0x27 && !ns.contains 0x22 then '"' else '\''
  String.ofList ('b' :: mark :: ns.flatMap (octetChars mark) ++ [mark])

/-- The text of a value. -/
def text : Extra → String
  | moment m => m.text
  | octets ns => octetText ns
  | set members => if members = [] then "set()" else "\x7b" ++ ", ".intercalate members ++ "\x7d"

/-- A value inside an array or an object. -/
def shown : Extra → String
  | moment m => m.shown
  | other => other.text

/-- Whether it is not empty. -/
def isGiven : Extra → Bool
  | moment _ => true
  | octets ns => !ns.isEmpty
  | set members => !members.isEmpty

/-- Whether two values are equal. -/
def same : Extra → Extra → Bool
  | moment a, moment b => a.same b
  | octets a, octets b => a = b
  | set a, set b => a.length = b.length && a.all b.contains
  | _, _ => false

/-- Whether a value can be a key. -/
def isKey : Extra → Bool
  | set _ => false
  | _ => true

end Extra

end Typings
