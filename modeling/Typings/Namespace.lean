/-!
Namespaces: a tree whose nodes are named by the segments of addresses. A node may hold a declaration, further nodes, or
both. Children are kept in the order of their names.
-/

namespace Typings

/-- A node of the tree. -/
inductive Namespace (α : Type) where
  /-- What is declared here, and the nodes inside, sorted by name. -/
  | node (leaf : Option α) (children : List (String × Namespace α))

namespace Namespace

variable {α : Type}

/-- A node with nothing in it. -/
def empty : Namespace α := node none []

/-- What is declared at a node. -/
def leaf : Namespace α → Option α
  | node l _ => l

/-- The nodes inside. -/
def children : Namespace α → List (String × Namespace α)
  | node _ cs => cs

/-- Change the entry of a name in a list sorted by name, or put one in. -/
def upsert {ν : Type} (name : String) (f : Option ν → ν) : List (String × ν) → List (String × ν)
  | [] => [(name, f none)]
  | (k, v) :: rest =>
    if k = name then (k, f (some v)) :: rest
    else if name < k then (name, f none) :: (k, v) :: rest
    else (k, v) :: upsert name f rest

/-- Declare `a` at a path. What is declared there already is replaced. -/
def insert (a : α) : List String → Namespace α → Namespace α
  | [], node _ cs => node (some a) cs
  | name :: rest, node l cs => node l (upsert name (fun c => insert a rest (c.getD empty)) cs)

/-- The child of a name. -/
def child? (t : Namespace α) (name : String) : Option (Namespace α) := (t.children.find? (·.1 = name)).map (·.2)

/-- The node at a path. -/
def find? : List String → Namespace α → Option (Namespace α)
  | [], t => some t
  | name :: rest, t => (t.child? name).bind (find? rest)

mutual

/-- The tree with `f` applied to everything declared. -/
def map {β : Type} (f : α → β) : Namespace α → Namespace β
  | node l cs => node (l.map f) (mapChildren f cs)

/-- `map` for a list of children. -/
def mapChildren {β : Type} (f : α → β) : List (String × Namespace α) → List (String × Namespace β)
  | [] => []
  | (name, c) :: rest => (name, map f c) :: mapChildren f rest

end

mutual

/-- All nodes with their paths behind `path`, each before those inside it. -/
def walkFrom (path : List String) : Namespace α → List (List String × Namespace α)
  | node l cs => (path, node l cs) :: walkChildren path cs

/-- The nodes of a list of children. -/
def walkChildren (path : List String) : List (String × Namespace α) → List (List String × Namespace α)
  | [] => []
  | (name, c) :: rest => walkFrom (path ++ [name]) c ++ walkChildren path rest

end

/-- All nodes with their paths, each before those inside it, and names in order. -/
def walk (t : Namespace α) : List (List String × Namespace α) := walkFrom [] t

/-- The number of declarations. -/
def countLeaves (t : Namespace α) : Nat := (t.walk.filter (·.2.leaf.isSome)).length

end Namespace

end Typings
