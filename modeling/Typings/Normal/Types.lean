import Typings.Failure
import Typings.Json.Equality

/-!
Reduction of lists of types: a type that comes twice counts once, and `integer` goes where `number` is.
-/

namespace Typings.Normal

/-- How lists of types are reduced. -/
inductive TypeRules where
  /-- Without repetitions, and `integer` is part of `number`. -/
  | mergeNumeric
  /-- Without repetitions. -/
  | distinct
  deriving DecidableEq

/-- Whether a value can be told apart from others as a type: arrays, objects and sets cannot. -/
def isComparable : Json → Bool
  | .arr _ | .obj _ => false
  | .extra x => x.isKey
  | _ => true

/-- The first of each group of equal values, in order; `done` holds those so far. -/
def distinctFrom (done : List Json) : List Json → List Json
  | [] => done
  | t :: rest => distinctFrom (if t.isIn done then done else done ++ [t]) rest

/-- Without `integer`, if `number` is there too. -/
def withoutInteger (types : List Json) : List Json :=
  if types.contains (.str "number") && types.contains (.str "integer")
  then types.filter (· ≠ .str "integer")
  else types

/-- Reduce a list of types. -/
def reduceTypes (rules : TypeRules) (types : List Json) : Except Failure (List Json) :=
  if types.all isComparable then
    let reduced := distinctFrom [] types
    .ok (match rules with
      | .mergeNumeric => withoutInteger reduced
      | .distinct => reduced)
  else .error .badKind

end Typings.Normal
