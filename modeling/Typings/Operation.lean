import Typings.Registry

/-!
Schemas for the operations of OpenAPI version 3. An operation is no schema itself; it is replaced by schemas for its
parameters, request bodies and responses:

* `<operation>/<location>Parameter` for each location that has parameters,
* `<operation>/<media>RequestBody` for each media type of the request body,
* `<operation>/request`, or `<operation>/<media>Request`, which puts these together,
* `<operation>/responses/<media>$<status>` for each media type of a response.

The media type is left out where there is only one.
-/

namespace Typings.Operation

/-- The locations of parameters. -/
def locations : List String := ["path", "query", "header", "cookie"]

/-- The short name of a media type. -/
def mediaName (mediaType : String) : String :=
  if mediaType = "application/json" then "json"
  else if mediaType = "application/xml" then "xml"
  else if mediaType = "application/x-www-form-urlencoded" then "form"
  else if mediaType = "text/plain" then "text"
  else mediaType

/-- The part of an address that a media type stands for, empty if it is the only one. -/
def mediaSegment (isOnly : Bool) (mediaType : String) : String :=
  if isOnly then "" else Pointer.encodeToken (mediaName mediaType)

/-- What a node stands for: the content of its target if it is a reference, else itself. -/
def resolved (node : Node) : Action Node := do
  let r ← get
  match node.reference? r.refs with
  | some text => return (← Action.lift (r.dereference text)).content
  | none => return node

/-- Whether a member counts as given. -/
def isGiven (node : Node) (key : String) : Bool := ((node.fields.get? key).map (·.read [])).any (·.isGiven)

/-- Register a schema under the address of an operation, and note its address as referenced. -/
def registerPart (operation : Schema Node) (name : String) (content : Node) : Action (Schema Node) := do
  let s : Schema Node :=
    { operation with
      address := .ofText (operation.address.text ++ "/" ++ name)
      content
      ancestors := operation.ancestors ++ [operation.address]
      operation := false }
  Action.register s
  Action.addReference s.address
  return s

/-! ### Parameters -/

/-- The parameters of an operation with their references followed; those that are no objects do not count. -/
def parameters (operation : Node) : Action (List Node) := do
  match operation.fields.get? "parameters" with
  | some (.arr _ xs) =>
    let all ← xs.mapM resolved
    return all.filter (·.isObject)
  | some (.atom _ (.bool b)) => if b then throw .badKind else return []
  | some (.atom _ (.num n)) => if n.isZero then return [] else throw .badKind
  | _ => return []

/-- The schema of a parameter: a copy of the one it names, without an id of its own and never an object or an array. -/
def parameterSchema (parameter : Node) : Action Node := do
  let named ← match parameter.fields.get? "schema" with
    | some node => resolved node
    | none => pure (.atom 0 .null)
  let mark ← Action.freshMark
  let refs := (← get).refs
  let content := match named with
    | .obj m fs => Node.copy refs mark (.obj m fs)
    | _ => .obj mark [("type", .atom mark (.str "string"))]
  let content := (content.erase "$id").erase "id"
  let type := (content.fields.get? "type").bind (·.str?)
  let content := if type = some "object" ∨ type = some "array" then content.set "type" (.atom mark (.str "string"))
    else content
  match parameter.fields.get? "description" with
  | some description =>
    if !content.fields.has "description" && isGiven parameter "description"
    then return content.set "description" description
    else return content
  | none => return content

/-- The properties and the required names of a group of parameters, collected in order. -/
def collect (group : List Node) (properties : Table String Node) (required : List String) :
    Action (Table String Node × List String) :=
  match group with
  | [] => pure (properties, required)
  | p :: rest => match (p.fields.get? "name").bind (·.str?) with
    | none => collect rest properties required
    | some name => do
      let schema ← parameterSchema p
      let required := if isGiven p "required" && !required.contains name then required ++ [name] else required
      collect rest (properties.set name schema) required

/-- Names as an array of strings. -/
def nameList (mark : Nat) (names : List String) : Node := .arr mark (names.map fun n => .atom mark (.str n))

/-- The parts of a request: property names with the addresses they refer to, and the required ones. -/
structure Request where
  /-- The properties, in order. -/
  properties : List (String × String)
  /-- The names of those that are required. -/
  required : List String

/-- The schema of a request. -/
def Request.toJson (r : Request) : Json :=
  .obj [("type", .str "object"),
    ("properties", .obj (r.properties.map fun e => (e.1, .obj [("$ref", .str e.2)]))),
    ("required", .arr (r.required.map .str))]

/-- Schemas that came out so far, and the request they make. -/
structure Draft where
  /-- The schemas, in order. -/
  schemas : List (Schema Node)
  /-- The request. -/
  request : Request

/-- Register the parameters of each location. -/
def addGroups (operation : Schema Node) (all : List Node) : List String → Draft → Action Draft
  | [], draft => pure draft
  | location :: rest, draft => do
    let group := all.filter fun p => (p.fields.get? "in").bind (·.str?) = some location
    if group.isEmpty then addGroups operation all rest draft
    else
      let (properties, required) ← collect group [] []
      let mark ← Action.freshMark
      let inner ← Action.freshMark
      let names ← Action.freshMark
      let content : Node := .obj mark
        [("type", .atom mark (.str "object")), ("properties", .obj inner properties),
          ("required", nameList names required)]
      let s ← registerPart operation (location ++ "Parameter") content
      let property := location ++ "Param"
      addGroups operation all rest
        { schemas := draft.schemas ++ [s]
          request :=
            { properties := draft.request.properties ++ [(property, s.address.text)]
              required := if required.isEmpty then draft.request.required else draft.request.required ++ [property] } }

/-! ### Request bodies and responses -/

/-- The schemas of media types; media types without one do not count. -/
def mediaSchemas (media : Table String Node) : List (String × Node) :=
  media.filterMap fun e => match e.2.fields.get? "schema" with
    | some schema => if schema.isNull then none else some (e.1, schema)
    | none => none

/-- Whether a body has required members of its own. -/
def hasRequired (body : Node) : Action Bool := do
  let node ← resolved body
  return isGiven node "required"

/-- Register a body and the request with it, for each media type. -/
def addBodies (operation : Schema Node) (isOnly isRequired : Bool) (request : Request) :
    List (String × Node) → Action (List (Schema Node))
  | [] => pure []
  | (mediaType, body) :: rest => do
    let segment := mediaSegment isOnly mediaType
    let bodySchema ← registerPart operation (segment ++ "RequestBody") body
    let needed ← if isRequired then pure true else hasRequired body
    let variant : Request :=
      { properties := request.properties ++ [("body", bodySchema.address.text)]
        required := if needed then request.required ++ ["body"] else request.required }
    let content ← Action.adopt (Node.ofJson variant.toJson)
    let requestSchema ← registerPart operation (if isOnly then "request" else segment ++ "Request") content
    let others ← addBodies operation isOnly isRequired request rest
    return bodySchema :: requestSchema :: others

/-- The schemas for the request bodies of an operation. -/
def requestBodies (operation : Schema Node) (request : Request) : Action (List (Schema Node)) := do
  match operation.content.fields.get? "requestBody" with
  | none => return []
  | some node =>
    let body ← resolved node
    match body.fields.get? "content" with
    | some (.obj _ media) =>
      let isRequired := (body.fields.get? "required").any fun v => match v with
        | .atom _ (.bool b) => b
        | _ => false
      addBodies operation (media.length = 1) isRequired request (mediaSchemas media)
    | _ => return []

/-- Register the schemas of one response, for each media type. -/
def addResponse (operation : Schema Node) (status : String) (isOnly : Bool) :
    List (String × Node) → Action (List (Schema Node))
  | [] => pure []
  | (mediaType, schema) :: rest => do
    let name := "responses/" ++ mediaSegment isOnly mediaType ++ "$" ++ Pointer.encodeToken status
    let s ← registerPart operation name schema
    let others ← addResponse operation status isOnly rest
    return s :: others

/-- Register the schemas of all responses. -/
def addResponses (operation : Schema Node) : List (String × Node) → Action (List (Schema Node))
  | [] => pure []
  | (status, node) :: rest => do
    let response ← resolved node
    let first ← match response.fields.get? "content" with
      | some (.obj _ media) => addResponse operation status (media.length = 1) (mediaSchemas media)
      | _ => pure []
    let others ← addResponses operation rest
    return first ++ others

/-- Replace an operation by its schemas; any other schema stays as it is. -/
def synthesize (s : Schema Node) : Action (List (Schema Node)) := do
  if !s.operation then return [s]
  else
    Action.tell (.synthesizing s.address.text)
    let all ← parameters s.content
    let draft ← addGroups s all locations ⟨[], ⟨[], []⟩⟩
    let bodies ← requestBodies s draft.request
    let plain ← if bodies.isEmpty && !draft.request.properties.isEmpty then do
        let content ← Action.adopt (Node.ofJson draft.request.toJson)
        let r ← registerPart s "request" content
        pure [r]
      else pure []
    let responses ← addResponses s (((s.content.fields.get? "responses").map (·.fields)).getD [])
    return draft.schemas ++ bodies ++ plain ++ responses

end Typings.Operation
