import Typings.Schema

/-!
Recognising documents. The dialect comes from `$schema`, `swagger` or `openapi`. In OpenAPI documents the named schemas
and the operations get ids of their own, unless they have one: the pointer to a schema, and for an operation the
namespaces its declarations will stand in. A document without an id takes the URL it was loaded from.
-/

namespace Typings.Document

/-- The methods of a path item that are operations. -/
def methods : List String := ["get", "put", "post", "delete", "options", "head", "patch", "trace"]

/-- What remains after a text in front. -/
def after? (front : String) (cs : List Char) : Option (List Char) :=
  if front.toList.isPrefixOf cs then some (cs.drop front.toList.length) else none

/-- The digits of the draft that a `$schema` names. -/
def draftDigits? (schema : String) : Option (List Char) := do
  let rest ← after? "http" schema.toList
  let rest := (after? "s" rest).getD rest
  let rest ← after? "://json-schema.org/draft-" rest
  let (digits, tail) := rest.span Text.isDigit
  let _ ← after? "/schema" tail
  if digits = [] then none else some digits

/-- The dialect that a `$schema` names. -/
def draft? (schema : String) : Except Failure (Option Dialect) :=
  match draftDigits? schema with
  | none => .ok none
  | some digits => match Text.int? (String.ofList digits) with
    | some n => .ok (some (if n ≤ 4 then .draft04 else .draft07))
    | none => .error .badNumeral

/-- Whether a text is a version number of three parts that starts with three; a line feed may follow. -/
def isVersion3 (version : String) : Bool :=
  let parts (cs : List Char) := match cs.splitOn '.' with
    | [major, minor, patch] =>
      major = ['3'] && minor ≠ [] && minor.all Text.isDigit && patch ≠ [] && patch.all Text.isDigit
    | _ => false
  let cs := version.toList
  parts cs || (cs.getLast? = some '\n' && parts cs.dropLast)

/-- The member `key` of an object. -/
def member (node : Node) (key : String) : Option Node := node.fields.get? key

/-- The members of the object under a key, none if there is no object. -/
def entries (node : Option Node) : Table String Node := (node.map (·.fields)).getD []

/-- The segments of a path template: `{name}` counts as `$name`. -/
def pathSegments (path : String) : List String :=
  ((path.toList.splitOn '/').filter (· ≠ [])).map fun segment =>
    if segment.head? = some (Char.ofNat 0x7B) && segment.getLast? = some (Char.ofNat 0x7D) && 2 ≤ segment.length &&
        !segment.contains '\n'
    then String.ofList ('$' :: (segment.drop 1).dropLast)
    else String.ofList segment

/-- The namespaces of an operation: its `operationId` if it has one, else its path and method. -/
def operationNames (path method : String) (operation : Node) : List String :=
  match given ((member operation "operationId").bind (·.str?)) with
  | some id => ["paths", id]
  | none => "paths" :: pathSegments path ++ [method]

/-- An id that a part is to have, with the keyword and the mark of the part. -/
structure Assignment where
  /-- The mark of the object. -/
  mark : Nat
  /-- The keyword that holds the id. -/
  key : String
  /-- The id. -/
  id : String

/-- The ids of named schemas, by the tokens that lead to them. -/
def schemaIds (dialect : Dialect) (front : List String) (schemas : Table String Node) : List Assignment :=
  schemas.map fun e => ⟨e.2.mark, dialect.idKeyword, "#" ++ Pointer.fragment (front ++ [e.1])⟩

/-- The operations of the path items, in the order of paths and methods. -/
def operations (paths : Table String Node) : List (String × String × Node) :=
  paths.flatMap fun e => methods.filterMap fun method => match member e.2 method with
    | some op => if op.isObject then some (e.1, method, op) else none
    | none => none

/-- The ids of operations. -/
def operationIds (paths : Table String Node) : List Assignment :=
  (operations paths).map fun (path, method, op) =>
    ⟨op.mark, Dialect.draft07.idKeyword, "#" ++ Pointer.fragment (operationNames path method op)⟩

/-- What a document is: its dialect, its version if it is OpenAPI, and the ids that its parts are to have. -/
structure Recognised where
  /-- The dialect. -/
  dialect : Dialect
  /-- The version of OpenAPI. -/
  openapi : Option OpenApi
  /-- Ids for parts, in order. -/
  ids : List Assignment

/-- Recognise a document. -/
def recognise (content : Node) : Except Failure Recognised := do
  let draft ← match (member content "$schema").bind (·.str?) with
    | some schema => draft? schema
    | none => pure none
  match draft with
  | some dialect => return ⟨dialect, none, []⟩
  | none =>
    if (member content "swagger").bind (·.str?) = some "2.0" then
      return ⟨.draft04, some .v2, schemaIds .draft04 ["definitions"] (entries (member content "definitions"))⟩
    else if ((member content "openapi").bind (·.str?)).any isVersion3 then
      let schemas := entries ((member content "components").bind (member · "schemas"))
      return ⟨.draft07, some .v3, schemaIds .draft07 ["components", "schemas"] schemas ++
        operationIds (entries (member content "paths"))⟩
    else return ⟨.draft04, none, []⟩

/-- Give an object the first id in a list that is meant for it, unless it has one. -/
def assignTo (ids : List Assignment) (m : Nat) (fields : Table String Node) : Table String Node :=
  match ids.find? (·.mark = m) with
  | some a => match fields.get? a.key with
    | some v => if v.isNull then fields.set a.key (.atom m (.str a.id)) else fields
    | none => fields.set a.key (.atom m (.str a.id))
  | none => fields

mutual

/-- Give the parts of a document their ids. -/
def assign (ids : List Assignment) : Node → Node
  | .atom m a => .atom m a
  | .arr m xs => .arr m (assignItems ids xs)
  | .obj m fs => .obj m (assignTo ids m (assignFields ids fs))

/-- Give the parts of items their ids. -/
def assignItems (ids : List Assignment) : List Node → List Node
  | [] => []
  | x :: rest => assign ids x :: assignItems ids rest

/-- Give the parts of members their ids. -/
def assignFields (ids : List Assignment) : List (String × Node) → List (String × Node)
  | [] => []
  | (k, x) :: rest => (k, assign ids x) :: assignFields ids rest

end

/-- The schema of a whole document, which may have been loaded from a URL. -/
def toSchema (content : Node) (url : Option String) : Except Failure (Schema Node) := do
  let r ← recognise content
  let own := match url with
    | some u => [⟨content.mark, r.dialect.idKeyword, u⟩]
    | none => []
  let content := assign (r.ids ++ own) content
  return {
    dialect := r.dialect
    address := match content.declaredId r.dialect with
      | some id => .ofText id
      | none => .empty
    content
    openapi := r.openapi
    ancestors := []
    operation := false }

end Typings.Document
