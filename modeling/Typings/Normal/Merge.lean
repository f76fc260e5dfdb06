import Typings.Json.Equality

/-!
Merging of schema objects. Under a key that both sides have, two objects are united by member name with the later entry
winning, two arrays are concatenated without repetition, and in all other cases the later value counts.
-/

namespace Typings.Normal

/-- The items of `ys` that are not there yet are put behind `xs`, one after the other. -/
def appendNew (xs : List Json) : List Json → List Json
  | [] => xs
  | y :: rest => appendNew (if y.isIn xs then xs else xs ++ [y]) rest

/-- The value under a key that has `current` on the earlier side and `value` on the later one. -/
def combine (current : Option Json) (value : Json) : Json :=
  match current, value with
  | some (.obj a), .obj b => .obj (Table.overlay a (Table.entries b))
  | some (.arr a), .arr b => .arr (appendNew a b)
  | _, v => v

/-- Merge the members of a later schema into an earlier one. -/
def merge (target : Fields) : List (String × Json) → Fields
  | [] => target
  | (key, value) :: rest => merge (target.set key (combine (target.get? key) value)) rest

/-- The keys whose values are of different kinds on the two sides. -/
def mismatches (target source : Fields) : List String :=
  source.keys.filter fun key => match target.get? key, source.get? key with
    | some current, some value => !current.isNull && current.kind ≠ value.kind
    | _, _ => false

end Typings.Normal
