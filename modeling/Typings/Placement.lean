import Typings.Namespace
import Typings.Notice

/-!
The place of schemas in the namespaces: each stands at the path that the names of its address make. Of two schemas with
one path the later one counts; schemas without names have no place.
-/

namespace Typings.Placement

variable {κ : Type}

/-- Put a schema at a path. -/
def place (tree : Namespace (Schema κ)) (path : List String) (s : Schema κ) : Told (Namespace (Schema κ)) := do
  match (tree.find? path).bind (·.leaf) with
  | some old => Told.tell (.replaced path old.address.text s.address.text)
  | none => pure ()
  return tree.insert s path

/-- Put schemas in their places, one after the other. -/
def placeAll (tree : Namespace (Schema κ)) : List (Schema κ) → Told (Namespace (Schema κ))
  | [] => pure tree
  | s :: rest => do
    let path ← Told.lift s.address.names
    if path.isEmpty then do
      Told.tell .unnamed
      placeAll tree rest
    else
      placeAll (← place tree path s) rest

/-- The namespaces of schemas, of which at least one has to have a place. -/
def build (schemas : List (Schema κ)) : Told (Namespace (Schema κ)) := do
  let tree ← placeAll .empty schemas
  if tree.children.isEmpty then throw (.schema .nothingDeclared) else return tree

end Typings.Placement
