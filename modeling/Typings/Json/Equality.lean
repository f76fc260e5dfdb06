import Typings.Json.Value

/-!
Equality of values by meaning: numbers count by their value whatever their kind, `true` and `false` count as one and
zero, and objects are compared without regard to the order of their members.
-/

namespace Typings.Json

/-- The number that a value counts as. -/
def number? : Json → Option Number
  | bool b => some (.int (if b then 1 else 0))
  | num n => some n
  | _ => none

/-- Whether both values count as numbers, and as the same one. -/
def numbersEqual (a b : Json) : Bool :=
  match a.number?, b.number? with
  | some m, some n => m.equals n
  | _, _ => false

mutual

/-- Equality by meaning. -/
def same : Json → Json → Bool
  | null, null => true
  | str s, str t => s = t
  | extra a, extra b => a.same b
  | arr xs, arr ys => sameItems xs ys
  | obj fs, obj gs => fs.length = gs.length && sameFields fs gs
  | bool b, other => numbersEqual (bool b) other
  | num n, other => numbersEqual (num n) other
  | _, _ => false

/-- Item by item. -/
def sameItems : List Json → List Json → Bool
  | [], [] => true
  | x :: xs, y :: ys => same x y && sameItems xs ys
  | _, _ => false

/-- Every member has an equal one of the same name on the other side. -/
def sameFields : List (String × Json) → Fields → Bool
  | [], _ => true
  | (k, v) :: rest, gs => (match gs.get? k with | some w => same v w | none => false) && sameFields rest gs

end

/-- Whether a value equal to `v` stands in a list. -/
def isIn (v : Json) (xs : List Json) : Bool := xs.any (·.same v)

end Typings.Json
