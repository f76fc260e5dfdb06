import Typings.Discovery
import Typings.Notice

/-!
The registry: schemas by their addresses, and the addresses that references name. Registering a schema registers
everything that a walk through it discovers. An address that is registered again takes the later schema.
-/

namespace Typings

/-- What is known in the course of a run. -/
structure Registry where
  /-- Schemas by address, in order of first registration. -/
  schemas : Table String (Schema Node)
  /-- Referenced addresses with their targets, once these are resolved. -/
  references : Table String (Option (Schema Node))
  /-- Fetched documents by the address they were fetched from. -/
  documents : Table String (Schema Node)
  /-- The current texts of references. -/
  refs : Refs
  /-- The first mark that is not in use. -/
  next : Nat
  /-- The URLs that were asked for, newest first. -/
  asked : List String
  /-- What there was to tell, newest first. -/
  notices : List Notice

/-- A step of a run. What was done before a failure stays. -/
abbrev Action := EStateM Failure Registry

namespace Registry

/-- Nothing is known. -/
def empty : Registry := ⟨[], [], [], [], 0, [], []⟩

/-- The referenced addresses without a target. -/
def pending (r : Registry) : List String := (r.references.filter (·.2.isNone)).map (·.1)

/-- The schema of an address: the one registered there, or else the target that a reference was resolved to. -/
def lookup? (r : Registry) (key : String) : Option (Schema Node) :=
  (r.schemas.get? key).or ((r.references.get? key).getD none)

/-- The number of nodes in all that an address can lead to. -/
def size (r : Registry) : Nat :=
  Node.sizeItems ((r.schemas.values ++ r.references.values.filterMap id).map (·.content))

/-- The schema that a reference text means. -/
def dereference (r : Registry) (text : String) : Except Failure (Schema Node) :=
  let key := (Address.ofText text).text
  match r.lookup? key with
  | some s => .ok s
  | none => .error (.reference key .unregistered)

end Registry

namespace Action

/-- Tell something. -/
def tell (n : Notice) : Action Unit := modify fun r => { r with notices := n :: r.notices }

/-- The value of a computation that may fail. -/
def lift {α : Type} (e : Except Failure α) : Action α :=
  match e with
  | .ok a => pure a
  | .error f => throw f

/-- A mark that is not in use. -/
def freshMark : Action Nat := modifyGet fun r => (r.next, { r with next := r.next + 1 })

/-- Take a document in: its marks are put behind those in use. -/
def adopt (document : Node) : Action Node :=
  modifyGet fun r => (document.shift r.next, { r with next := r.next + document.bound })

/-- Take a document in and recognise it. -/
def openDocument (document : Node) (url : Option String) : Action (Schema Node) := do
  let content ← adopt document
  let schema ← lift (Document.toSchema content url)
  tell (.recognised schema.dialect schema.openapi (schema.content.declaredId schema.dialect))
  return schema

/-- Put a schema under its address. -/
def addSchema (s : Schema Node) : Action Unit := do
  let key := s.address.text
  match (← get).schemas.get? key with
  | some old => if !old.content.isSame s.content then tell (.superseded key)
  | none => pure ()
  modify fun r => { r with schemas := r.schemas.set key s }

/-- Note a referenced address. -/
def addReference (a : Address) : Action Unit :=
  modify fun r => if r.references.has a.text then r else { r with references := r.references.set a.text none }

/-- Take up the reports of a walk. -/
def takeUp : List Discovery.Found → Action Unit
  | [] => pure ()
  | .schema s _ :: rest => do addSchema s; takeUp rest
  | .reference a :: rest => do addReference a; takeUp rest

/-- Register a schema and everything inside it. -/
def register (s : Schema Node) : Action Unit := do
  tell (.registering s.address.text)
  addSchema s
  let r ← get
  let walked := Discovery.walk s r.refs r.next
  takeUp walked.found
  modify fun r => { r with refs := walked.refs, next := walked.next }
  match walked.failure with
  | some f => throw f
  | none => pure ()

end Action

end Typings
