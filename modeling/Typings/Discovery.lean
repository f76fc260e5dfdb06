import Typings.Document

/-!
Discovery of schemas and references. A walk through the content of a schema visits every place where another schema may
stand, outer places before inner ones and in a fixed order of keywords. On the way it reports each object that declares an
id, with the address the id has inside the ids around it, and each reference, whose text becomes the address it means.

The walk keeps a list of visits and always takes the first one. Children of a node come before the visits that are
already there, so that a node is finished before its next neighbour is begun.
-/

namespace Typings.Discovery

/-! ### Places of schemas -/

/-- What a keyword may hold. -/
inductive Place where
  /-- A schema. -/
  | one
  /-- An array of schemas. -/
  | many
  /-- A schema or an array of schemas. -/
  | oneOrMany
  /-- An object whose members are schemas. -/
  | named
  /-- An array of schemas or an object whose members are schemas. -/
  | manyOrNamed
  /-- An object of objects whose members are schemas. -/
  | sections

/-- The schemas that stand in a node, according to its place. -/
def Place.pick : Place → Node → List Node
  | one, node => [node]
  | many, node => node.items
  | oneOrMany, .arr _ xs => xs
  | oneOrMany, node => [node]
  | named, node => node.fields.values
  | manyOrNamed, .arr _ xs => xs
  | manyOrNamed, node => node.fields.values
  | sections, node => node.fields.values.flatMap (·.fields.values)

/-- The keywords of all dialects, in the order in which they are visited. -/
def commonPlaces : Table String Place :=
  [("allOf", .many), ("anyOf", .many), ("oneOf", .many), ("not", .one), ("items", .oneOrMany),
    ("additionalItems", .one), ("additionalProperties", .one), ("definitions", .named), ("properties", .named),
    ("patternProperties", .named), ("dependencies", .named)]

/-- The keywords that came with draft 7. -/
def draft07Places : Table String Place :=
  [("propertyNames", .one), ("contains", .one), ("if", .one), ("then", .one), ("else", .one)]

/-- The keywords of OpenAPI version 3. -/
def openapi3Places : Table String Place :=
  [("components", .sections), ("parameters", .manyOrNamed), ("headers", .manyOrNamed),
    ("requestBodies", .manyOrNamed), ("responses", .manyOrNamed), ("content", .manyOrNamed), ("schema", .one),
    ("requestBody", .one)]

/-- The keywords that may hold schemas. -/
def places (dialect : Dialect) (openapi : Option OpenApi) : Table String Place :=
  commonPlaces ++ (if dialect = .draft07 then draft07Places else []) ++
    (if openapi = some .v3 then openapi3Places else [])

/-- The nodes in the places of an object. -/
def childrenAt (places : Table String Place) (fields : Table String Node) : List Node :=
  places.flatMap fun e => match fields.get? e.1 with
    | some node => e.2.pick node
    | none => []

/-- The nodes that may be schemas directly inside a node. -/
def children (dialect : Dialect) (openapi : Option OpenApi) (node : Node) : List Node :=
  childrenAt (places dialect openapi) node.fields

/-! ### Children are smaller than their parent -/

section Size

/-- The size of a list of nodes. -/
abbrev total (nodes : List Node) : Nat := Node.sizeItems nodes

theorem total_append (xs ys : List Node) : total (xs ++ ys) = total xs + total ys := by
  induction xs with
  | nil => simp [Node.sizeItems]
  | cons x xs ih =>
    simp only [total, List.cons_append, Node.sizeItems] at ih ⊢
    omega

theorem total_values (fields : Table String Node) : total fields.values = Node.sizeFields fields := by
  induction fields with
  | nil => rfl
  | cons e rest ih =>
    obtain ⟨k, v⟩ := e
    simp only [total, Table.values, List.map_cons, Node.sizeItems, Node.sizeFields] at ih ⊢
    omega

theorem total_fields_lt_or (node : Node) : total node.fields.values ≤ node.size := by
  cases node with
  | atom m a => simp [Node.fields, Table.values, Node.sizeItems]
  | arr m xs => simp [Node.fields, Table.values, Node.sizeItems]
  | obj m fs => simp only [Node.fields, total_values, Node.size]; omega

theorem total_flatMap_fields (nodes : List Node) :
    total (nodes.flatMap (·.fields.values)) ≤ total nodes := by
  induction nodes with
  | nil => simp
  | cons x xs ih =>
    have h := total_fields_lt_or x
    simp only [List.flatMap_cons, total_append, total, Node.sizeItems] at ih h ⊢
    omega

theorem Place.total_pick (p : Place) (node : Node) : total (p.pick node) ≤ node.size := by
  cases p with
  | one => simp [Place.pick, total, Node.sizeItems]
  | many => cases node <;> simp [Place.pick, Node.items, total, Node.sizeItems, Node.size]
  | oneOrMany => cases node <;> simp [Place.pick, total, Node.sizeItems, Node.size]
  | named => exact total_fields_lt_or node
  | manyOrNamed =>
    cases node with
    | arr m xs => simp [Place.pick, total, Node.size]
    | atom m a => exact total_fields_lt_or _
    | obj m fs => exact total_fields_lt_or _
  | sections => exact Nat.le_trans (total_flatMap_fields _) (total_fields_lt_or node)

/-- The size of the member under a key. -/
def sizeAt (fields : Table String Node) (key : String) : Nat := ((fields.get? key).map Node.size).getD 0

/-- The size of the members under different keys. -/
def sizesAt (fields : Table String Node) : List String → Nat
  | [] => 0
  | k :: ks => sizeAt fields k + sizesAt fields ks

theorem sizeAt_cons (k : String) (v : Node) (rest : Table String Node) (key : String) :
    sizeAt ((k, v) :: rest) key = if k = key then v.size else sizeAt rest key := by
  by_cases h : k = key <;> simp [sizeAt, Table.get?, h]

theorem sizesAt_cons_of_not_mem (k : String) (v : Node) (rest : Table String Node) :
    ∀ keys : List String, k ∉ keys → sizesAt ((k, v) :: rest) keys = sizesAt rest keys
  | [], _ => rfl
  | key :: keys, h => by
    have hk : k ≠ key := fun e => h (e ▸ List.mem_cons_self)
    simp only [sizesAt, sizeAt_cons, if_neg hk]
    rw [sizesAt_cons_of_not_mem k v rest keys fun m => h (List.mem_cons_of_mem _ m)]

theorem sizesAt_cons_le (k : String) (v : Node) (rest : Table String Node) :
    ∀ keys : List String, keys.Nodup → sizesAt ((k, v) :: rest) keys ≤ v.size + sizesAt rest keys
  | [], _ => by simp [sizesAt]
  | key :: keys, h => by
    obtain ⟨hk, h'⟩ := List.nodup_cons.1 h
    simp only [sizesAt, sizeAt_cons]
    split
    · next e => rw [sizesAt_cons_of_not_mem k v rest keys (e ▸ hk)]; omega
    · have := sizesAt_cons_le k v rest keys h'; omega

theorem sizesAt_le (keys : List String) (h : keys.Nodup) :
    ∀ fields : Table String Node, sizesAt fields keys ≤ Node.sizeFields fields
  | [] => by
    have : ∀ ks : List String, sizesAt [] ks = 0 := by
      intro ks
      induction ks with
      | nil => rfl
      | cons k ks ih => simp [sizesAt, sizeAt, Table.get?, ih]
    simp [this]
  | (k, v) :: rest => by
    have h₁ := sizesAt_cons_le k v rest keys h
    have h₂ := sizesAt_le keys h rest
    simp only [Node.sizeFields]
    omega

theorem total_childrenAt (fields : Table String Node) :
    ∀ places : Table String Place, total (childrenAt places fields) ≤ sizesAt fields places.keys
  | [] => by simp [childrenAt, Table.keys, sizesAt, total, Node.sizeItems]
  | (key, p) :: rest => by
    have ih := total_childrenAt fields rest
    simp only [childrenAt, List.flatMap_cons, total_append, Table.keys, List.map_cons, sizesAt] at ih ⊢
    have h : total (match fields.get? key with
        | some node => p.pick node
        | none => []) ≤ sizeAt fields key := by
      unfold sizeAt
      cases fields.get? key with
      | none => simp [total, Node.sizeItems]
      | some node => exact p.total_pick node
    omega

theorem places_nodup (dialect : Dialect) (openapi : Option OpenApi) : (places dialect openapi).keys.Nodup := by
  cases dialect <;> cases openapi with
  | none => decide
  | some v => cases v <;> decide

/-- The children of a node are smaller than the node, taken together. -/
theorem total_children_lt (dialect : Dialect) (openapi : Option OpenApi) (node : Node) :
    total (children dialect openapi node) < node.size := by
  have h := total_childrenAt node.fields (places dialect openapi)
  have h' := sizesAt_le _ (places_nodup dialect openapi) node.fields
  unfold children
  cases node with
  | atom m a => simp only [Node.fields, Node.sizeFields, Node.size] at h h' ⊢; omega
  | arr m xs => simp only [Node.fields, Node.sizeFields, Node.size] at h h' ⊢; omega
  | obj m fs => simp only [Node.fields, Node.size] at h h' ⊢; omega

end Size

/-! ### Operations -/

/-- What tells a parameter from others: its name and location, or the parameter itself if it has no name. -/
inductive ParameterKey where
  /-- Name and location. -/
  | named (name location : Json)
  /-- The parameter itself. -/
  | itself (node : Node)

/-- The key of a parameter. A name or a location that is an array or an object cannot be told from others. -/
def parameterKey (node : Node) : Except Failure ParameterKey :=
  match node.fields.get? "name" with
  | none => .ok (.itself node)
  | some name =>
    let name := name.read []
    let location := ((node.fields.get? "in").map (·.read [])).getD .null
    match name, location with
    | .arr _, _ | .obj _, _ | _, .arr _ | _, .obj _ => .error .badKind
    | _, _ => .ok (.named name location)

/-- Whether two keys are equal. -/
def ParameterKey.equals : ParameterKey → ParameterKey → Bool
  | named m a, named n b => m.same n && a.same b
  | itself x, itself y => x.isSame y
  | _, _ => false

/-- The parameters of an operation: those of its path that it does not override, then its own. -/
def mergeParameters (shared own : List Node) : Except Failure (List Node) := do
  let overridden ← own.mapM parameterKey
  let keys ← shared.mapM parameterKey
  return ((shared.zip keys).filter fun e => !overridden.any e.2.equals).map (·.1) ++ own

/-- The copies of the operations of a path item, with marks from `next` on. -/
def copyOperations (refs : Refs) (item : Node) (next : Nat) : List String → Except Failure (List Node × Nat)
  | [] => .ok ([], next)
  | method :: rest => match item.fields.get? method with
    | some (.obj m fs) => do
      let shared := ((item.fields.get? "parameters").map (·.items)).getD []
      let copied := Node.copy refs next (.obj m fs)
      let copied ← if shared = [] then pure copied else do
        let own := ((Table.get? fs "parameters").map (·.items)).getD []
        let merged ← mergeParameters shared own
        pure (copied.set "parameters" (.arr (next + 1) merged))
      let (others, last) ← copyOperations refs item (next + 2) rest
      return (copied :: others, last)
    | _ => copyOperations refs item next rest

/-- The copies of the operations of all path items. -/
def copyAllOperations (refs : Refs) (next : Nat) : List Node → Except Failure (List Node × Nat)
  | [] => .ok ([], next)
  | item :: rest => do
    let (first, after) ← copyOperations refs item next Document.methods
    let (others, last) ← copyAllOperations refs after rest
    return (first ++ others, last)

/-- The operations of a document. -/
def operationCopies (refs : Refs) (next : Nat) (document : Node) : Except Failure (List Node × Nat) :=
  copyAllOperations refs next ((document.fields.get? "paths").map (·.fields.values) |>.getD [])

/-! ### The walk -/

/-- What a walk reports. -/
inductive Found where
  /-- A schema with an id, and the texts of references when it was met. -/
  | schema (schema : Schema Node) (refs : Refs)
  /-- A reference. -/
  | reference (address : Address)

/-- What a walk leaves behind. -/
structure Trail where
  /-- The current texts of references. -/
  refs : Refs
  /-- The reports, newest first. -/
  found : List Found

/-- A step of a walk; reports made before a failure stay. -/
abbrev Walk := EStateM Failure Trail

/-- A visit to a node that is still to be made. -/
structure Visit where
  /-- The node. -/
  node : Node
  /-- The ids around it, outermost first. -/
  scope : List String
  /-- Whether it is an operation. -/
  operation : Bool

/-- The value of a computation that may fail. -/
def lift {α : Type} (e : Except Failure α) : Walk α :=
  match e with
  | .ok a => pure a
  | .error f => throw f

/-- Make a report. -/
def report (f : Found) : Walk Unit := modify fun t => { t with found := f :: t.found }

/-- Report an object that declares an id; the result is the scope inside it. -/
def enter (s : Schema Node) (visit : Visit) : Walk (List String) :=
  match visit.node.declaredId s.dialect with
  | none => pure visit.scope
  | some id => do
    let address ← lift (Address.within id visit.scope)
    let refs := (← get).refs
    report (.schema
      { dialect := s.dialect
        address
        content := visit.node
        openapi := s.openapi
        ancestors := s.ancestors ++ [s.address]
        operation := visit.operation } refs)
    return visit.scope ++ [address.text]

/-- Report the reference that a node is, if it is one, and write its address in its place. -/
def canonize (node : Node) (scope : List String) : Walk Unit := do
  match node.reference? (← get).refs with
  | none => pure ()
  | some text =>
    let address ← lift (Address.within text scope)
    modify fun t => { t with refs := t.refs.set node.mark address.text }
    report (.reference address)

/-- Make all visits, the first one first. -/
def run (s : Schema Node) (visits : List Visit) : Walk Unit :=
  match visits with
  | [] => pure ()
  | visit :: rest =>
    if visit.node.isObject then do
      let scope ← enter s visit
      canonize visit.node scope
      run s ((children s.dialect s.openapi visit.node).map (⟨·, scope, false⟩) ++ rest)
    else run s rest
termination_by total (visits.map (·.node))
decreasing_by
  · have h := total_children_lt s.dialect s.openapi visit.node
    simp only [List.map_append, List.map_map, Function.comp_def, List.map_id', total_append, List.map_cons, total,
      Node.sizeItems] at h ⊢
    omega
  · have h : 0 < visit.node.size := by cases visit.node <;> simp only [Node.size] <;> omega
    simp only [List.map_cons, total, Node.sizeItems]
    omega

/-- What is left after a whole walk. -/
structure Outcome where
  /-- The current texts of references. -/
  refs : Refs
  /-- The first mark that is not in use. -/
  next : Nat
  /-- The reports, in order. -/
  found : List Found
  /-- What ended the walk early. -/
  failure : Option Failure

/-- The ids around the parts of a schema. -/
def rootScope (s : Schema Node) : List String := s.scope.filter (· ≠ "#")

/-- Walk through the content of a schema. The content itself is not reported; the operations of an OpenAPI document come
right after it. -/
def walk (s : Schema Node) (refs : Refs) (next : Nat) : Outcome :=
  let scope := rootScope s
  if !s.content.isObject then ⟨refs, next, [], none⟩
  else
    match (canonize s.content scope).run ⟨refs, []⟩ with
    | .error f t => ⟨t.refs, next, t.found.reverse, some f⟩
    | .ok _ t =>
      let copies := if s.openapi = some .v3 then operationCopies t.refs next s.content else .ok ([], next)
      match copies with
      | .error f => ⟨t.refs, next, t.found.reverse, some f⟩
      | .ok (operations, next) =>
        let visits := operations.map (⟨·, scope, true⟩) ++
          (children s.dialect s.openapi s.content).map (⟨·, scope, false⟩)
        match (run s visits).run t with
        | .error f t => ⟨t.refs, next, t.found.reverse, some f⟩
        | .ok _ t => ⟨t.refs, next, t.found.reverse, none⟩

end Typings.Discovery
