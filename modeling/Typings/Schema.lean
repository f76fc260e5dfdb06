import Typings.Address
import Typings.Node

/-!
Schemas: a content with its address, its dialect, and the schemas it was taken from. The content is a part of a document
while references are being resolved, and a plain JSON value afterwards.
-/

namespace Typings

/-- The dialects of JSON Schema. -/
inductive Dialect where
  /-- Draft 4; schemas are identified by `id`. -/
  | draft04
  /-- Draft 7; schemas are identified by `$id`. -/
  | draft07
  deriving DecidableEq

namespace Dialect

/-- The keyword that gives a schema its id. -/
def idKeyword : Dialect → String
  | draft04 => "id"
  | draft07 => "$id"

/-- The name of the dialect. -/
def name : Dialect → String
  | draft04 => "Draft04"
  | draft07 => "Draft07"

end Dialect

/-- The versions of OpenAPI. -/
inductive OpenApi where
  /-- Version 2. -/
  | v2
  /-- Version 3. -/
  | v3
  deriving DecidableEq

/-- The number of the version. -/
def OpenApi.number : OpenApi → Nat
  | v2 => 2
  | v3 => 3

/-- A schema with its content. -/
structure Schema (κ : Type) where
  /-- The dialect of its keywords. -/
  dialect : Dialect
  /-- Where it is. -/
  address : Address
  /-- What it says. -/
  content : κ
  /-- The version of the OpenAPI document it belongs to. -/
  openapi : Option OpenApi
  /-- The addresses of the schemas it was taken from, outermost first. -/
  ancestors : List Address
  /-- Whether the content is an operation of an OpenAPI document. -/
  operation : Bool

namespace Schema

variable {κ : Type}

/-- The same schema with another content. -/
def withContent {μ : Type} (s : Schema κ) (content : μ) : Schema μ :=
  { dialect := s.dialect, address := s.address, content, openapi := s.openapi, ancestors := s.ancestors
    operation := s.operation }

/-- The addresses of the schemas it was taken from and its own, outermost first. -/
def scope (s : Schema κ) : List String := (s.ancestors ++ [s.address]).map (·.text)

/-- Whether it is a whole OpenAPI document. -/
def isDocument (s : Schema κ) : Bool := s.openapi.isSome && s.ancestors.isEmpty

/-- Whether it is an entry of an OpenAPI `components` section other than `schemas`. -/
def isComponent (s : Schema κ) : Bool :=
  s.openapi = some .v3 && match s.address.fragment.toList.splitOn '/' with
    | [front, first, sect, name] =>
      front = [] && first = "components".toList && sect ≠ [] && sect ≠ "schemas".toList && name ≠ []
    | _ => false

/-- Whether it gets a declaration of its own. -/
def isDeclarable (s : Schema κ) : Bool := !(s.operation || s.isDocument || s.isComponent)

/-- The address of a part of a schema: `explicit` if it is given, else the one the part declares for itself, else the
pointer behind the schema's own address. -/
def partAddress (s : Schema κ) (tokens : List String) (explicit : Option Address) (declared : Option String) :
    Except Failure Address :=
  match explicit, declared with
  | some a, _ => .ok a
  | none, some id => Address.within id s.scope
  | none, none => .ok (Address.ofText (s.address.text ++ Pointer.fragment tokens))

/-- The schema of a part. -/
def part (s : Schema κ) (tokens : List String) (address : Address) (content : κ) : Schema κ :=
  { s with address, content, ancestors := s.ancestors ++ [s.address], operation := s.operation && tokens.isEmpty }

end Schema

/-- The id that an object declares for itself. -/
def Json.declaredId (dialect : Dialect) (v : Json) : Option String :=
  given ((v.get? dialect.idKeyword).bind (·.str?))

/-- The id that an object declares for itself. -/
def Node.declaredId (dialect : Dialect) (node : Node) : Option String :=
  given ((node.fields.get? dialect.idKeyword).bind (·.str?))

/-- The schema at a pointer. -/
def Schema.sub (s : Schema Json) (pointer : String) : Except Failure (Schema Json) := do
  let tokens ← Pointer.parse pointer
  let content ← Pointer.get s.content tokens pointer
  let address ← s.partAddress tokens none (content.declaredId s.dialect)
  return s.part tokens address content

/-- The schema at a pointer, inside a document; `explicit` is its address if it is known. -/
def Schema.extract (refs : Refs) (s : Schema Node) (pointer : String) (explicit : Option Address) :
    Except Failure (Schema Node) := do
  let tokens ← Pointer.parse pointer
  let content ← (Node.follow refs tokens s.content).mapError (Failure.pointer pointer)
  let address ← s.partAddress tokens explicit (content.declaredId s.dialect)
  return s.part tokens address content

/-- The schema as it stands. -/
def Schema.read (refs : Refs) (s : Schema Node) : Schema Json := s.withContent (s.content.read refs)

end Typings
