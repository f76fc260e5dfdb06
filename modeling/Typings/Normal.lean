import Typings.Normal.Merge
import Typings.Normal.Types
import Typings.Notice

/-!
Normal forms of schemas. Truth values become objects, `allOf` members are merged into the schema one after the other, a
list of types is reduced, and a schema with properties and no type is an object. The schemas that are looked up stay
as they are.
-/

namespace Typings.Normal

/-- What normalisation works with. -/
structure Setting where
  /-- Where references are looked up, if anywhere. -/
  lookup : Option (String → Except Failure (Schema Json))
  /-- How lists of types are reduced. -/
  rules : TypeRules
  /-- How many references may be followed one inside the other. -/
  depth : Nat

/-- The schema that a truth value stands for. -/
def ofBool (b : Bool) : Fields := if b then [] else [("not", .obj [])]

/-- The text of the reference that a value is. -/
def reference? (v : Json) : Option String := (v.get? "$ref").bind (·.str?)

/-- Whether members speak of an object without a type: there are properties, or additional ones other than `false`. -/
def impliesObject (fs : Fields) : Bool :=
  (fs.get? "properties").any (!·.isNull) ||
    (fs.get? "additionalProperties").any fun v => !v.isNull && !v.same (.bool false)

/-- Give members their type in normal form. -/
def settleType (rules : TypeRules) (fs : Fields) : Except Failure Fields :=
  match (fs.get? "type").getD .null with
  | .null => .ok (if impliesObject fs then fs.set "type" (.str "object") else fs)
  | .arr types => do
    match ← reduceTypes rules types with
    | [] => return fs.erase "type"
    | [t] => return fs.set "type" t
    | several => return fs.set "type" (.arr several)
  | _ => .ok fs

mutual

/-- The normal form of the content `v` of `s`; `seen` holds the references that are being followed. -/
def content (env : Setting) (depth : Nat) (s : Schema Json) (seen : List String) (v : Json) : Told Fields :=
  match v with
  | .bool b => pure (ofBool b)
  | .obj fs =>
    match _h : Table.get? fs "allOf" with
    | some (.arr members) => do
      let merged ← mergeAll env depth s seen (Table.erase fs "allOf") members
      Told.lift (settleType env.rules merged)
    | _ => Told.lift (settleType env.rules (Table.erase fs "allOf"))
  | _ => throw (.schema (.notObject s.address.text))
termination_by (depth, 2 * v.size)
decreasing_by
  have := Json.size_le_of_get? _h
  simp only [Json.size] at this ⊢
  exact Prod.Lex.right _ (by omega)

/-- The normal form of an `allOf` member: that of its target, if it is a reference. -/
def member (env : Setting) (depth : Nat) (s : Schema Json) (seen : List String) (m : Json) : Told Fields :=
  match reference? m with
  | none => content env depth s seen m
  | some r =>
    if seen.contains r then throw (.schema (.circular r))
    else match env.lookup with
      | none => throw (.schema (.noRegistry r))
      | some lookup => match lookup r, depth with
        | .error f, _ => throw f
        | .ok _, 0 => throw .endless
        | .ok t, depth + 1 => content env depth t (r :: seen) t.content
termination_by (depth, 2 * m.size + 1)
decreasing_by
  · exact Prod.Lex.right _ (by omega)
  · exact Prod.Lex.left _ _ (by omega)

/-- Merge the normal forms of `allOf` members into `done`, one after the other. -/
def mergeAll (env : Setting) (depth : Nat) (s : Schema Json) (seen : List String) (done : Fields) (members : List Json) :
    Told Fields :=
  match members with
  | [] => pure done
  | m :: rest => do
    let fs ← member env depth s seen m
    let fs := Table.erase fs s.dialect.idKeyword
    (mismatches done fs).forM fun key => Told.tell (.kindMismatch key)
    mergeAll env depth s seen (merge done fs.entries) rest
termination_by (depth, 2 * Json.sizeItems members + 2)
decreasing_by
  · exact Prod.Lex.right _ (by simp only [Json.sizeItems]; omega)
  · have := Json.size_pos m
    exact Prod.Lex.right _ (by simp only [Json.sizeItems]; omega)

end

/-- The normal form of a schema. -/
def normalize (env : Setting) (s : Schema Json) : Told (Schema Fields) := do
  let fs ← content env env.depth s [] s.content
  return s.withContent fs

/-- The normal form of the schema at a pointer. -/
def normalizeAt (env : Setting) (s : Schema Json) (pointer : String) : Told (Schema Fields) := do
  normalize env (← Told.lift (s.sub pointer))

end Typings.Normal
