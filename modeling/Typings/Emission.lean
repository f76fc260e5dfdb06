import Typings.Declaration
import Typings.Json.Display
import Typings.Naming
import Typings.Normal

/-!
From schemas to declarations. Each schema of the namespace tree is brought into normal form and declared: as an
interface if it is an object, else as a type alias. References become names, everything else is written out in place.
-/

namespace Typings.Emission

/-- What emission works with. -/
structure Setting where
  /-- How schemas are brought into normal form. -/
  normal : Normal.Setting
  /-- Where references are looked up. -/
  lookup : String → Except Failure (Schema Json)
  /-- Whether a schema is registered under an address. -/
  isRegistered : String → Bool
  /-- The namespaces. -/
  tree : Namespace (Schema Json)
  /-- How deep types may be nested. -/
  depth : Nat

/-- The type of a primitive JSON Schema type; nothing for objects and arrays. -/
def primitive (type : Json) (schema : Option String) : Except Failure (Option String) :=
  match type with
  | .arr _ | .obj _ | .extra (.set _) => .error .badKind
  | .str "any" => .ok (some "any")
  | .str "null" => .ok (some "null")
  | .str "string" => .ok (some "string")
  | .str "integer" | .str "number" => .ok (some "number")
  | .str "boolean" => .ok (some "boolean")
  | .str "object" | .str "array" => .ok none
  | other => .error (.unsupportedType other.display schema)

/-- The literal of a value; `numeric` says that numbers stand for themselves. There is none for a value that JSON has no
kind for. -/
def literal (numeric : Bool) (v : Json) : Except Failure String :=
  match v with
  | .num _ => .ok (if numeric then v.text else (Json.str v.text).text)
  | .str _ => .ok v.text
  | _ => if v.isStandard then .ok (Json.str v.text).text else .error .badKind

/-- A note: one line, with the force taken out of comment ends. -/
def note (v : Json) : String :=
  " ".intercalate ((Text.words (Writer.defused v.display.toList)).map String.ofList)

/-- The notes on a schema: its format and its pattern. -/
def notes (fs : Fields) : List String :=
  ["format", "pattern"].filterMap fun key => ((fs.get? key).filter (·.isGiven)).map note

/-- The lines of the comment on a schema: its comment, title and description, and its examples. -/
def commentOf (fs : Fields) : Except Failure (List String) :=
  let texts := ["$comment", "title", "description"].filterMap fs.get?
  let examples := if fs.has "example" || fs.has "examples" then
      .str "example:" :: (fs.get? "example").toList ++ ((fs.get? "examples").map (·.items)).getD []
    else []
  if (texts ++ examples).all (·.isStandard) then .ok ((texts ++ examples).flatMap Writer.commentLines)
  else .error .badKind

/-- The reference to a schema from inside the namespaces `inside`. -/
def nameOf (env : Setting) (inside : List String) (address : Address) : Told String := do
  let names ← Told.lift address.names
  if names.isEmpty then throw (.reference address.text .nameless)
  else
    let r := Naming.refer env.tree inside names
    if r.isGlobal then Told.tell (.shadowed (".".intercalate r.parts) inside)
    return r.text

/-- The number of items that `minItems` asks for, if it does. -/
def minItems? (fs : Fields) : Except Failure (Option Int) :=
  match fs.get? "minItems" with
  | none | some .null => .ok none
  | some (.num (.int n)) => .ok (some n)
  | some (.bool b) => .ok (some (if b then 1 else 0))
  | some _ => .error .badKind

/-- The pointers to the first `count` items under a keyword. -/
def itemPointers (key : String) (count : Nat) : List String :=
  (List.range count).map fun (i : Nat) => "/" ++ key ++ "/" ++ Number.intText i

/-- The pointers to the alternatives of `anyOf` and `oneOf`. -/
def alternatives (fs : Fields) : List String :=
  ["anyOf", "oneOf"].flatMap fun key => itemPointers key ((fs.get? key).map (·.items.length) |>.getD 0)

/-- The required property names. -/
def requiredNames (fs : Fields) : List Json := ((fs.get? "required").map (·.items)).getD []

/-- The names of the properties, in order. -/
def propertyNames (fs : Fields) : List String := ((fs.get? "properties").map (·.fields.keys)).getD []

/-- The schema at a pointer into a schema in normal form, in normal form. -/
def partAt (env : Setting) (s : Schema Fields) (pointer : String) : Told (Schema Fields) :=
  Normal.normalizeAt env.normal (s.withContent (.obj s.content)) pointer

/-- The slots of a tuple behind its given items: objects, but the last slot of the longest tuple is anything. -/
def fillers (given length most : Nat) : List TypeExpr :=
  (List.range' given (length - given)).map fun i => .plain (if i + 1 < most then "object" else "any") []

mutual

/-- The type of a schema in normal form. -/
def typeOf (env : Setting) (inside : List String) : (depth : Nat) → Schema Fields → Told TypeExpr
  | 0, _ => throw .endless
  | depth + 1, s =>
    let fs := s.content
    match (fs.get? "$ref").bind (·.str?) with
    | some r => do
      let t ← Told.lift (env.lookup r)
      let name ← nameOf env inside t.address
      return .plain name (notes t.content.fields)
    | none =>
      if alternatives fs ≠ [] then do
        let types ← (alternatives fs).mapM fun pointer => do partType env inside depth (← partAt env s pointer)
        return .union types (notes fs)
      else match fs.get? "enum", fs.get? "const" with
        | some (.arr values), _ => do
          let literals ← Told.lift (values.mapM (literal true))
          return .union (literals.map (.plain · [])) (notes fs)
        | _, some v => do
          let one ← Told.lift (literal (fs.get? "type" = some (.str "integer")) v)
          return .plain one (notes fs)
        | _, none => match (fs.get? "type").getD .null with
          | .null => pure (.plain "any" (notes fs))
          | .arr types => do
            let several ← types.mapM fun type => namedType env inside depth s type []
            return .union several (notes fs)
          | type => namedType env inside depth s type (notes fs)

/-- The type that a schema in normal form has by its type `type`; `shown` are the notes on primitive types. -/
def namedType (env : Setting) (inside : List String) :
    (depth : Nat) → Schema Fields → Json → (shown : List String) → Told TypeExpr
  | 0, _, _, _ => throw .endless
  | depth + 1, s, type, shown => do
    match ← Told.lift (primitive type (some s.address.text)) with
    | some name => return .plain name shown
    | none =>
      if type = .str "object" then return .object (← members env inside depth s)
      else arrayType env inside depth s

/-- The type of a part: its name if it has an id and is registered, else written out. -/
def partType (env : Setting) (inside : List String) : (depth : Nat) → Schema Fields → Told TypeExpr
  | 0, _ => throw .endless
  | depth + 1, s =>
    if ((Json.obj s.content).declaredId s.dialect).isSome && env.isRegistered s.address.text then do
      let name ← nameOf env inside s.address
      return .plain name (notes s.content)
    else typeOf env inside depth s

/-- The type of a schema that is an array. -/
def arrayType (env : Setting) (inside : List String) : (depth : Nat) → Schema Fields → Told TypeExpr
  | 0, _ => throw .endless
  | depth + 1, s =>
    let fs := s.content
    match (fs.get? "items").getD .null with
    | .null => pure (.plain "any[]" (notes fs))
    | .arr items =>
      if items.isEmpty && ((fs.get? "minItems").getD .null).isNull then pure (.plain "any[]" (notes fs))
      else do
        let least ← Told.lift (minItems? fs)
        let most : Int := 1 + max (least.getD 0) items.length
        let first := least.getD 1
        let variants ← (List.range (most - first + 1).toNat).mapM fun (k : Nat) => do
          let length := (first + k).toNat
          let types ← (itemPointers "items" (min length items.length)).mapM fun pointer => do
            partType env inside depth (← partAt env s pointer)
          return types ++ fillers items.length length most.toNat
        return .tuples variants (notes fs)
    | _ => do
      let item ← partAt env s "/items"
      let type ← typeOf env inside depth item
      return .array type (notes fs)

/-- The members of a schema that is an object. -/
def members (env : Setting) (inside : List String) : (depth : Nat) → Schema Fields → Told (List (Head × TypeExpr))
  | 0, _ => throw .endless
  | depth + 1, s => do
    let fs := s.content
    let additional ← match (fs.get? "additionalProperties").getD .null with
      | .null | .bool false => pure []
      | .bool true => pure [(Head.anyName, TypeExpr.plain "any" [])]
      | _ => do
        let t ← partAt env s "/additionalProperties"
        let type ← typeOf env inside depth t
        pure [(Head.anyName, type)]
    let own ← (propertyNames fs).mapM fun name => do
      let t ← partAt env s ("/properties/" ++ Pointer.escape name)
      let comment ← Told.lift (commentOf t.content)
      let isOptional := !(Json.str name).isIn (requiredNames fs)
      let type ← typeOf env inside depth t
      return (Head.property comment (t.content.get? "readOnly" = some (.bool true)) name isOptional, type)
    return additional ++ own

end

/-- The declaration of a schema at a path of the namespaces. -/
def declare (env : Setting) (path : List String) (s : Schema Json) : Told Declaration := do
  Told.tell (.declaring s.address.text)
  let n ← Normal.normalize env.normal s
  let comment ← Told.lift (commentOf n.content)
  let inside := path.dropLast
  let type := n.content.get? "type"
  let body ←
    if type = some (.str "object") then do pure (.interface (← members env inside env.depth n))
    else if type = some (.str "any") then do
      pure (.interface ((.anyName, .plain "any" ["any"]) :: (← members env inside env.depth n)))
    else if type = some (.str "array") then do pure (.typeAlias (← arrayType env inside env.depth n))
    else do pure (.typeAlias (← typeOf env inside env.depth n))
  return { comment, name := Name.typeName (path.getLastD ""), body }

mutual

/-- What stands at a node: its declaration, then the namespace of what is inside it. -/
def itemsAt (env : Setting) (path : List String) : Namespace (Schema Json) → Told (List Item)
  | .node leaf children => do
    let own ← match leaf with
      | some s => do pure [Item.declare (← declare env path s)]
      | none => pure []
    if children.isEmpty then return own
    else
      let inner ← itemsOf env path children
      return own ++ [.block (Name.typeName (path.getLastD "")) inner]

/-- What stands at several nodes inside one. -/
def itemsOf (env : Setting) (path : List String) : List (String × Namespace (Schema Json)) → Told (List Item)
  | [] => pure []
  | (name, node) :: rest => do
    let first ← itemsAt env (path ++ [name]) node
    let others ← itemsOf env path rest
    return first ++ others

end

/-- The declarations of all schemas in the namespaces. -/
def emit (env : Setting) : Told (List Item) := itemsOf env [] env.tree.children

end Typings.Emission
