import Typings.Emission
import Typings.Operation
import Typings.Placement
import Typings.Resolution

/-!
From documents to declaration text. The documents are registered; a first stage resolves every reference in them; a
second stage replaces operations by schemas and resolves the references in those; the schemas are placed in namespaces
and declared.
-/

namespace Typings.Generator

/-- How declarations are generated. -/
structure Options where
  /-- How documents are fetched. -/
  fetcher : Fetcher
  /-- One step of indentation. -/
  indent : String
  /-- How lists of types are reduced. -/
  rules : Normal.TypeRules

/-- The stages of resolution. -/
inductive Stage where
  /-- References in documents. -/
  | documents
  /-- References in the schemas of operations. -/
  | synthesized
  deriving DecidableEq

/-- The name of a stage. -/
def Stage.name : Stage → String
  | documents => "documents"
  | synthesized => "synthesized"

/-- A computation that tells things, as a step of a run. -/
def told {α : Type} (x : Told α) : Action α := fun r =>
  match x r.notices with
  | .ok a ns => .ok a { r with notices := ns }
  | .error f ns => .error f { r with notices := ns }

/-- Take a document in and register it. -/
def addDocument (document : Node) (url : Option String) : Action (Schema Node) := do
  let s ← Action.openDocument document url
  Action.register s
  return s

/-- Replace operations by their schemas; the result is how many there are. -/
def synthesizeAll : List (Schema Node) → Action Nat
  | [] => pure 0
  | s :: rest => do
    let first ← if s.operation then (·.length) <$> Operation.synthesize s else pure 0
    let others ← synthesizeAll rest
    return first + others

/-- Run a stage; the result is how many references were resolved. -/
def runStage (options : Options) (stage : Stage) : Action Nat := do
  if stage = .synthesized then
    let count ← synthesizeAll (← get).schemas.values
    Action.tell (.synthesized count)
  let resolved ← Resolution.resolve options.fetcher
  Action.tell (.stageDone stage.name resolved)
  return resolved

/-- The namespaces of the registered schemas that are declared. -/
def namespaces : Action (Namespace (Schema Node)) := do
  told (Placement.build ((← get).schemas.values.filter (·.isDeclarable)))

/-- A number that no chain of nested parts exceeds, unless it goes round in a circle. -/
def depthBound (r : Registry) : Nat := r.size + 1

/-- How schemas are brought into normal form with what is registered. -/
def normalSetting (options : Options) (r : Registry) : Normal.Setting :=
  { lookup := some fun text => (r.dereference text).map (·.read r.refs)
    rules := options.rules
    depth := depthBound r }

/-- How schemas are declared with what is registered. -/
def emissionSetting (options : Options) (r : Registry) (tree : Namespace (Schema Node)) : Emission.Setting :=
  { normal := normalSetting options r
    lookup := fun text => (r.dereference text).map (·.read r.refs)
    isRegistered := r.schemas.has
    tree := tree.map (·.read r.refs)
    depth := 4 * depthBound r }

/-- The text of the declarations of all schemas in the namespaces. -/
def emit (options : Options) (tree : Namespace (Schema Node)) : Action String := do
  let r ← get
  let items ← told (Emission.emit (emissionSetting options r tree))
  return Item.render options.indent items

/-- Generate declarations for what is registered. -/
def finish (options : Options) : Action String := do
  let _ ← runStage options .documents
  let _ ← runStage options .synthesized
  let tree ← namespaces
  Action.tell (.namespacesBuilt tree.countLeaves)
  emit options tree

/-- Generate declarations for documents with the URLs they were loaded from. -/
def generate (options : Options) : List (Node × Option String) → Action String
  | [] => finish options
  | (document, url) :: rest => do
    let _ ← addDocument document url
    generate options rest

end Typings.Generator
