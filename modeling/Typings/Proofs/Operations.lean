import Mathlib.Data.List.Forall2
import Typings.Proofs.Ground
import Typings.Proofs.Node
import Typings.Proofs.Walk

/-!
The operations that discovery finds. When an OpenAPI document is recognised, its named schemas and its operations get ids: the
pointers `components/schemas/<name>` and `paths/<operationId>`. Discovery then copies each operation and reports it under the
address that its id has in the document. A part that stands in several places is one part, so an operation that is a named
schema at the same time keeps the id of the schema. Main statements:

* `Discovery.walk_operations`: a walk reports the operations of its document, each of them once, and in order;
* `Document.operations_found`: the addresses of these operations are those of their places, on one ground;
* `Document.IsNamed.operationId_eq`: places tell operations apart.
-/

namespace Typings

/-! ### Ids for parts -/

namespace Document

/-- The paths of a document. -/
def pathsOf (document : Node) : Table String Node := entries (member document "paths")

/-- The named schemas of a document. -/
def schemasOf (document : Node) : Table String Node := entries ((member document "components").bind (member · "schemas"))

/-- The operations of a path item. -/
def operationsIn (item : Node) : List Node := methods.filterMap fun method => (member item method).filter (·.isObject)

/-- The operations of a document. -/
def operationNodes (document : Node) : List Node := (pathsOf document).values.flatMap operationsIn

lemma operations_eq (paths : Table String Node) : (operations paths).map (·.2.2) = paths.values.flatMap operationsIn := by
  rw [operations, List.map_flatMap, Table.values, List.flatMap_map]
  refine List.flatMap_congr fun e _ => ?_
  rw [List.map_filterMap, operationsIn]
  refine List.filterMap_congr fun method _ => ?_
  cases member e.2 method with
  | none => rfl
  | some op => cases h : op.isObject <;> simp [Option.filter_some, h]

section Assign

variable {ids : List Assignment}

lemma assignFields_eq (ids : List Assignment) (fs : Table String Node) :
    assignFields ids fs = fs.map fun e => (e.1, assign ids e.2) := by
  induction fs with
  | nil => rfl
  | cons e fs ih => rw [assignFields, ih, List.map_cons]

lemma get?_assignFields (ids : List Assignment) (fs : Table String Node) (key : String) :
    Table.get? (assignFields ids fs) key = (Table.get? fs key).map (assign ids) := by
  rw [assignFields_eq]
  exact Table.get?_map fs (fun _ x => assign ids x) key

lemma isObject_assign (ids : List Assignment) (node : Node) : (assign ids node).isObject = node.isObject := by
  cases node <;> rfl

/-- Giving an object its id changes nothing but an id that is missing. -/
lemma assignTo_cases (hids : ∀ a ∈ ids, a.key = "$id") (m : ℕ) (fs : Table String Node) :
    assignTo ids m fs = fs ∨ ∃ id, assignTo ids m fs = fs.set "$id" (.atom m (.str id)) ∧
      ∀ v, fs.get? "$id" = some v → v.isNull = true := by
  rw [assignTo]
  cases hfind : ids.find? (·.mark = m) with
  | none => exact Or.inl rfl
  | some a =>
    have hkey : a.key = "$id" := hids a (List.mem_of_find?_eq_some hfind)
    dsimp only
    rw [hkey]
    cases hv : fs.get? "$id" with
    | none => exact Or.inr ⟨a.id, rfl, nofun⟩
    | some v =>
      dsimp only
      split_ifs with hnull
      · exact Or.inr ⟨a.id, rfl, fun w hw => Option.some.inj hw ▸ hnull⟩
      · exact Or.inl rfl

variable (hids : ∀ a ∈ ids, a.key = "$id")
include hids

lemma member_assign (node : Node) {key : String} (hk : key ≠ "$id") :
    member (assign ids node) key = (member node key).map (assign ids) := by
  rcases node with ⟨m, a⟩ | ⟨m, xs⟩ | ⟨m, fs⟩
  · rfl
  · rfl
  · rw [member, member, assign, Node.fields, Node.fields, ← get?_assignFields]
    rcases assignTo_cases hids m (assignFields ids fs) with h | ⟨id, h, -⟩
    · rw [h]
    · rw [h, Table.get?_set_of_ne hk.symm]

/-- The part that an id is meant for has that id, if it has none of its own. -/
lemma member_id_assign {op : Node} (hobj : op.isObject = true) (hnull : ∀ v, member op "$id" = some v → v.isNull = true)
    {a : Assignment} (ha : ids.find? (·.mark = op.mark) = some a) :
    member (assign ids op) "$id" = some (.atom op.mark (.str a.id)) := by
  rcases op with ⟨m, x⟩ | ⟨m, xs⟩ | ⟨m, fs⟩
  · cases hobj
  · cases hobj
  · have hkey : a.key = "$id" := hids a (List.mem_of_find?_eq_some ha)
    have hset : assignTo ids m (assignFields ids fs) =
        Table.set (assignFields ids fs) "$id" (.atom m (.str a.id)) := by
      rw [assignTo, show ids.find? (·.mark = m) = some a from ha]
      dsimp only
      rw [hkey, get?_assignFields]
      cases hv : Table.get? fs "$id" with
      | none => rfl
      | some v =>
        have hn : (assign ids v).isNull = true := by
          have hn := hnull v hv
          rcases v with ⟨n, x⟩ | ⟨n, xs⟩ | ⟨n, gs⟩
          · exact hn
          · cases hn
          · cases hn
        simp only [Option.map_some, hn, if_true]
    rw [member, assign, Node.fields, hset, Table.get?_set_self]
    rfl

lemma operationsIn_assign (item : Node) : operationsIn (assign ids item) = (operationsIn item).map (assign ids) := by
  rw [operationsIn, operationsIn, List.map_filterMap]
  refine List.filterMap_congr fun method hmethod => ?_
  have hne : method ≠ "$id" := by
    rintro rfl
    exact absurd hmethod (by decide)
  rw [member_assign hids item hne]
  cases member item method with
  | none => rfl
  | some op => cases h : op.isObject <;> simp [Option.filter_some, isObject_assign, h]

omit hids in
lemma flatMap_values_set {β : Type} {f : Node → List β} {t : Table String Node} {k : String} {x : Node} (hx : f x = [])
    (ht : ∀ v, t.get? k = some v → f v = []) : (t.set k x).values.flatMap f = t.values.flatMap f := by
  induction t with
  | nil => simp [Table.set, Table.values, hx]
  | cons e t ih =>
    obtain ⟨l, w⟩ := e
    by_cases hl : l = k
    · have hw : f w = [] := ht w (by rw [Table.get?_cons, if_pos hl])
      simp [Table.set, hl, Table.values, hx, hw]
    · have ih := ih fun v hv => ht v (by rw [Table.get?_cons, if_neg hl, hv])
      rw [Table.set, if_neg hl]
      exact congrArg (f w ++ ·) ih

/-- What is given to the object of the paths itself is no path item. -/
lemma operations_assign (node : Node) :
    (assign ids node).fields.values.flatMap operationsIn = (node.fields.values.flatMap operationsIn).map (assign ids) := by
  rcases node with ⟨m, a⟩ | ⟨m, xs⟩ | ⟨m, fs⟩
  · rfl
  · rfl
  · have hfields : (Table.values (assignFields ids fs)).flatMap operationsIn =
        ((Table.values fs).flatMap operationsIn).map (assign ids) := by
      rw [assignFields_eq, Table.values, List.map_map, List.flatMap_map, Table.values, List.flatMap_map, List.map_flatMap]
      exact List.flatMap_congr fun e _ => operationsIn_assign hids e.2
    rw [assign, Node.fields, Node.fields, ← hfields]
    rcases assignTo_cases hids m (assignFields ids fs) with h | ⟨id, h, hnull⟩
    · rw [h]
    · rw [h]
      refine flatMap_values_set rfl fun v hv => ?_
      have hn := hnull v hv
      rcases v with ⟨n, x⟩ | ⟨n, xs⟩ | ⟨n, gs⟩
      · rfl
      · cases hn
      · cases hn

end Assign

end Document

/-! ### Copies of operations -/

namespace Discovery

open Document (operationsIn)

/-- A copy of an operation: its reference may have another text, and its parameters may be more. -/
def IsCopy (op copy : Node) : Prop := ∀ key, key ≠ "$ref" → key ≠ "parameters" → copy.fields.get? key = op.fields.get? key

lemma isCopy_copy (refs : Refs) (mark m : ℕ) (fs : Table String Node) :
    IsCopy (.obj m fs) (Node.copy refs mark (.obj m fs)) := by
  intro key href _
  rw [Node.copy, Node.fields, Table.get?_map fs (Node.current refs m), Node.fields]
  have hcurrent : Node.current refs m key = id := by
    funext x
    rw [Node.current]
    · rfl
    · exact fun _ _ hk => absurd hk href
  rw [hcurrent, Option.map_id_fun]
  rfl

lemma IsCopy.set_parameters {op copy : Node} (h : IsCopy op copy) (x : Node) : IsCopy op (copy.set "parameters" x) := by
  intro key href hparameters
  rw [← h key href hparameters]
  rcases copy with ⟨m, a⟩ | ⟨m, xs⟩ | ⟨m, fs⟩
  · rfl
  · rfl
  · exact Table.get?_set_of_ne hparameters.symm

/-- The copy that is made of an operation of a path item: it has the parameters of both if the item has any. -/
inductive IsCopied (refs : Refs) (item op : Node) : Node → Prop
  | plain (mark : ℕ) (h : ((item.fields.get? "parameters").map (·.items)).getD [] = []) :
    IsCopied refs item op (Node.copy refs mark op)
  | merged (mark : ℕ) {all : List Node} (h : mergeParameters (((item.fields.get? "parameters").map (·.items)).getD [])
      (((op.fields.get? "parameters").map (·.items)).getD []) = .ok all) :
    IsCopied refs item op ((Node.copy refs mark op).set "parameters" (.arr (mark + 1) all))

lemma IsCopied.isCopy {refs : Refs} {item op copy : Node} (h : IsCopied refs item op copy) : IsCopy op copy := by
  have hcopy : ∀ mark, IsCopy op (Node.copy refs mark op) := by
    intro mark
    rcases op with ⟨m, a⟩ | ⟨m, xs⟩ | ⟨m, fs⟩
    · exact fun _ _ _ => rfl
    · exact fun _ _ _ => rfl
    · exact isCopy_copy refs mark m fs
  cases h with
  | plain mark _ => exact hcopy mark
  | merged mark _ => exact (hcopy mark).set_parameters _

lemma copyOperations_isCopied {refs : Refs} {item : Node} {methods : List String} {next last : ℕ} {copies : List Node}
    (h : copyOperations refs item next methods = .ok (copies, last)) :
    List.Forall₂ (IsCopied refs item) (methods.filterMap fun method => (Document.member item method).filter (·.isObject))
      copies := by
  induction methods generalizing next last copies with
  | nil =>
    cases h
    exact .nil
  | cons method methods ih =>
    rw [copyOperations] at h
    rw [List.filterMap_cons, Document.member]
    split at h
    · next m fs hop =>
      have hfilter : (some (Node.obj m fs)).filter (·.isObject) = some (.obj m fs) := by
        simp [Option.filter_some, Node.isObject]
      rw [hop, hfilter]
      have htail : ∀ {copied : Node}, IsCopied refs item (.obj m fs) copied →
          (do let rest ← copyOperations refs item (next + 2) methods; pure (copied :: rest.1, rest.2)) = .ok (copies, last) →
            List.Forall₂ (IsCopied refs item) (.obj m fs :: methods.filterMap fun method =>
              (Document.member item method).filter (·.isObject)) copies := by
        intro copied hcopied h
        obtain ⟨⟨others, last'⟩, hothers, h⟩ := bind_eq_ok.1 h
        cases h
        exact .cons hcopied (ih hothers)
      dsimp only at h
      split_ifs at h with hnone
      · exact htail (.plain next hnone) h
      · obtain ⟨merged, hmerged, h⟩ := bind_eq_ok.1 h
        exact htail (.merged next hmerged) h
    · next hop =>
      have hfilter : (item.fields.get? method).filter (·.isObject) = none := by
        cases hget : item.fields.get? method with
        | none => rfl
        | some x =>
          rcases x with ⟨m, a⟩ | ⟨m, xs⟩ | ⟨m, fs⟩
          · rfl
          · rfl
          · exact absurd hget (hop m fs)
      rw [hfilter]
      exact ih h

lemma copyOperations_isCopy {refs : Refs} {item : Node} {methods : List String} {next last : ℕ} {copies : List Node}
    (h : copyOperations refs item next methods = .ok (copies, last)) :
    List.Forall₂ IsCopy (methods.filterMap fun method => (Document.member item method).filter (·.isObject)) copies :=
  (copyOperations_isCopied h).imp fun _ _ hcopied => hcopied.isCopy

/-- **Copies of operations** are one for each operation, in order. -/
lemma copyAllOperations_isCopy {refs : Refs} {items : List Node} {next last : ℕ} {copies : List Node}
    (h : copyAllOperations refs next items = .ok (copies, last)) :
    List.Forall₂ IsCopy (items.flatMap operationsIn) copies := by
  induction items generalizing next last copies with
  | nil =>
    cases h
    exact .nil
  | cons item items ih =>
    rw [copyAllOperations] at h
    obtain ⟨⟨first, after⟩, hfirst, h⟩ := bind_eq_ok.1 h
    obtain ⟨⟨others, last'⟩, hothers, h⟩ := bind_eq_ok.1 h
    cases h
    rw [List.flatMap_cons]
    exact List.rel_append (copyOperations_isCopy hfirst) (ih hothers)

/-! ### Reports of operations -/

/-- The operation that a report is about. -/
def Found.operation? : Found → Option (Schema Node)
  | .schema s _ => if s.operation then some s else none
  | .reference _ => none

/-- The operations that a walk has reported. -/
def Trail.operations (t : Trail) : List (Schema Node) := t.found.reverse.filterMap Found.operation?

/-- The operations that a whole walk reports. -/
def Outcome.operations (o : Outcome) : List (Schema Node) := o.found.filterMap Found.operation?

/-- The report of a visit to an operation. -/
def reportOf (s : Schema Node) (visit : Visit) : Option (Schema Node) :=
  if visit.operation then
    (visit.node.declaredId s.dialect).bind fun id => match Address.within id visit.scope with
      | .ok address => some ⟨s.dialect, address, visit.node, s.openapi, s.ancestors ++ [s.address], true⟩
      | .error _ => none
  else none

lemma reportOf_children (s : Schema Node) (nodes : List Node) (scope : List String) :
    (nodes.map (Visit.mk · scope false)).filterMap (reportOf s) = [] := by
  rw [List.filterMap_map, List.filterMap_eq_nil_iff]
  exact fun _ _ => rfl

lemma Trail.operations_report (t : Trail) (refs : Refs) (f : Found) :
    Trail.operations ⟨refs, f :: t.found⟩ = t.operations ++ f.operation?.toList := by
  rw [Trail.operations, List.reverse_cons, List.filterMap_append, Trail.operations]
  cases h : f.operation? <;> simp [h]

lemma enter_operations (s : Schema Node) (visit : Visit) (t : Trail) :
    Yields (enter s visit) t (fun _ t' => t'.operations = t.operations ++ (reportOf s visit).toList)
      (fun _ t' => t'.operations = t.operations) := by
  unfold enter reportOf
  cases visit.node.declaredId s.dialect with
  | none => exact Yields.of_pure (by simp)
  | some id =>
    refine Yields.bind ?_
    cases h : Address.within id visit.scope with
    | error f => exact Yields.of_throw rfl
    | ok address =>
      refine Yields.of_pure (Yields.bind (Yields.of_get (Yields.bind (Yields.of_modify (Yields.of_pure ?_)))))
      rw [Trail.operations_report, Found.operation?]
      cases visit.operation <;> simp [h]

lemma canonize_operations (node : Node) (scope : List String) (t : Trail) :
    Yields (canonize node scope) t (fun _ t' => t'.operations = t.operations) (fun _ t' => t'.operations = t.operations) := by
  refine Yields.bind (Yields.of_get ?_)
  cases node.reference? t.refs with
  | none => exact Yields.of_pure rfl
  | some text =>
    refine Yields.bind ?_
    cases Address.within text scope with
    | error f => exact Yields.of_throw rfl
    | ok address =>
      refine Yields.of_pure (Yields.bind (Yields.of_modify (Yields.of_modify ?_)))
      rw [Trail.operations_report, Found.operation?, Option.toList_none, List.append_nil]
      rfl

/-- Visits report the operations among them, each once. The children that are put in front are no operations. -/
lemma run_operations (s : Schema Node) (visits : List Visit) (t : Trail) :
    Yields (run s visits) t (fun _ t' => t'.operations.Sublist (t.operations ++ visits.filterMap (reportOf s)))
      (fun _ t' => t'.operations.Sublist (t.operations ++ visits.filterMap (reportOf s))) := by
  induction visits using run.induct s generalizing t with
  | case1 =>
    rw [run]
    exact Yields.of_pure (List.sublist_append_left _ _)
  | case2 visit rest hobj ih =>
    rw [run, if_pos hobj]
    have hall : t.operations.Sublist (t.operations ++ (visit :: rest).filterMap (reportOf s)) := List.sublist_append_left _ _
    refine Yields.bind ((enter_operations s visit t).mono ?_ fun _ _ h => h ▸ hall)
    intro scope t₁ hentered
    have hmore : (t₁.operations ++ rest.filterMap (reportOf s)) = t.operations ++ (visit :: rest).filterMap (reportOf s) := by
      rw [hentered, List.append_assoc]
      cases h : reportOf s visit <;> simp [h]
    refine Yields.bind ((canonize_operations visit.node scope t₁).mono ?_ fun _ _ h => ?_)
    · rintro ⟨⟩ t₂ hcanonized
      have hsame : t₂.operations ++ ((children s.dialect s.openapi visit.node).map (Visit.mk · scope false) ++
          rest).filterMap (reportOf s) = t.operations ++ (visit :: rest).filterMap (reportOf s) := by
        rw [List.filterMap_append, reportOf_children, List.nil_append, hcanonized, hmore]
      exact hsame ▸ ih scope t₂
    · rw [h, ← hmore]
      exact List.sublist_append_left _ _
  | case3 visit rest hobj ih =>
    rw [run, if_neg hobj]
    have hrest : (t.operations ++ rest.filterMap (reportOf s)).Sublist
        (t.operations ++ (visit :: rest).filterMap (reportOf s)) :=
      (((List.sublist_cons_self visit rest).filterMap _).append_left _)
    exact (ih t).mono (fun _ _ h => h.trans hrest) fun _ _ h => h.trans hrest

/-- **A walk reports the operations of its document**, those that it comes to, each once and in order. -/
theorem walk_operations {s : Schema Node} (hv : s.openapi = some .v3) (refs : Refs) (next : ℕ) :
    (walk s refs next).operations = [] ∨ ∃ refs' copies last, operationCopies refs' next s.content = .ok (copies, last) ∧
      (walk s refs next).operations.Sublist (copies.filterMap fun copy => reportOf s ⟨copy, rootScope s, true⟩) := by
  have hroot := canonize_operations s.content (rootScope s) ⟨refs, []⟩
  unfold walk
  dsimp only
  split_ifs
  · exact Or.inl rfl
  split
  · next f t ht => exact Or.inl (hroot.bad_of_error ht)
  · next t ht =>
    have hnone : t.operations = [] := hroot.good_of_ok ht
    split
    · exact Or.inl hnone
    · next copies last hcopies =>
      refine Or.inr ⟨t.refs, copies, last, hcopies, ?_⟩
      have hrun := run_operations s (copies.map (Visit.mk · (rootScope s) true) ++
        (children s.dialect s.openapi s.content).map (Visit.mk · (rootScope s) false)) t
      rw [hnone, List.nil_append, List.filterMap_append, reportOf_children, List.append_nil, List.filterMap_map] at hrun
      split
      · next f t' ht' => exact hrun.bad_of_error ht'
      · next t' ht' => exact hrun.good_of_ok ht'

end Discovery

/-! ### Operations of a document -/

namespace Document

open Address (IsGround locator)
open Discovery (walk rootScope)

/-- The `operationId` of an operation, unless it is empty. -/
def operationId? (op : Node) : Option String := given ((member op "operationId").bind (·.str?))

/-- A document in which a mark stands for one object, and no object has a member twice. -/
structure IsRegular (document : Node) : Prop where
  marks : ∀ x ∈ document.parts, ∀ y ∈ document.parts, x.isObject = true → y.isObject = true → x.mark = y.mark → x = y
  keys : ∀ x ∈ document.parts, x.fields.keys.Nodup

/-- Operations with names: each has an `operationId` that no other has, and no id of its own. -/
structure NamesOperations (document : Node) : Prop where
  named : ∀ op ∈ operationNodes document, (operationId? op).isSome = true
  distinct : ((operationNodes document).map operationId?).Nodup
  noId : ∀ op ∈ operationNodes document, ∀ v, member op "$id" = some v → v.isNull = true

lemma parts_of_values {node x : Node} (h : x ∈ node.fields.values) : x ∈ node.parts :=
  Node.parts_of_pick (p := .named) h

lemma parts_of_member {node x : Node} {key : String} (h : member node key = some x) : x ∈ node.parts :=
  parts_of_values (Table.mem_values_of_get? h)

/-- The entries of what is under a key are those of a part. -/
lemma entries_eq {node : Option Node} (h : entries node ≠ []) : ∃ x, node = some x ∧ entries node = x.fields := by
  cases node with
  | none => exact absurd rfl h
  | some x => exact ⟨x, rfl, rfl⟩

lemma parts_of_pathsOf {node item : Node} (h : item ∈ (pathsOf node).values) : item ∈ node.parts := by
  have hne : entries (member node "paths") ≠ [] := by
    intro hnil
    rw [pathsOf, hnil] at h
    cases h
  obtain ⟨paths, hpaths, heq⟩ := entries_eq hne
  rw [pathsOf, heq] at h
  exact Node.parts_trans (parts_of_member hpaths) (parts_of_values h)

lemma parts_of_operationsIn {item op : Node} (h : op ∈ operationsIn item) : op ∈ item.parts ∧ op.isObject = true := by
  obtain ⟨method, -, hop⟩ := List.mem_filterMap.1 h
  obtain ⟨hmember, hobj⟩ := Option.filter_eq_some_iff.1 hop
  exact ⟨parts_of_member hmember, hobj⟩

lemma parts_of_operationNodes {document op : Node} (h : op ∈ operationNodes document) :
    op ∈ document.parts ∧ op.isObject = true := by
  obtain ⟨item, hitem, hop⟩ := List.mem_flatMap.1 h
  obtain ⟨hpart, hobj⟩ := parts_of_operationsIn hop
  exact ⟨Node.parts_trans (parts_of_pathsOf hitem) hpart, hobj⟩

lemma nodup_keys_schemasOf {document : Node} (h : IsRegular document) : (schemasOf document).keys.Nodup := by
  by_cases hne : schemasOf document = []
  · rw [hne]
    exact List.nodup_nil
  · obtain ⟨schemas, hschemas, heq⟩ := entries_eq hne
    obtain ⟨components, hcomponents, hschemas⟩ := Option.bind_eq_some_iff.1 hschemas
    rw [schemasOf, heq]
    exact h.keys schemas (Node.parts_trans (parts_of_member hcomponents) (parts_of_member hschemas))

/-- **The place of an operation**: that of its name, or of a named schema that is the same part. -/
def IsNamed (document op : Node) (tokens : List String) : Prop :=
  (∃ id, operationId? op = some id ∧ tokens = ["paths", id]) ∨
    ∃ name node, (name, node) ∈ schemasOf document ∧ node.mark = op.mark ∧ tokens = ["components", "schemas", name]

lemma IsNamed.isPlace {document op : Node} {tokens : List String} (h : IsNamed document op tokens) :
    Pointer.IsPlace tokens := by
  rcases h with ⟨id, -, rfl⟩ | ⟨name, node, -, -, rfl⟩
  · exact ⟨List.cons_ne_nil _ _, by simp⟩
  · exact ⟨List.cons_ne_nil _ _, by simp⟩

/-- **Places tell operations apart.** -/
theorem IsNamed.operationId_eq {document op op' : Node} {tokens : List String} (hdocument : IsRegular document)
    (hop : op ∈ operationNodes document) (hop' : op' ∈ operationNodes document) (h : IsNamed document op tokens)
    (h' : IsNamed document op' tokens) : operationId? op = operationId? op' := by
  rcases h with ⟨id, hid, rfl⟩ | ⟨name, node, hmem, hmark, rfl⟩
  · rcases h' with ⟨id', hid', heq⟩ | ⟨name, node, -, -, heq⟩
    · obtain rfl : id = id' := by simpa using heq
      rw [hid, hid']
    · simp at heq
  · rcases h' with ⟨id, -, heq⟩ | ⟨name', node', hmem', hmark', heq⟩
    · simp at heq
    · -- one name is the name of one schema, so both operations have its mark
      obtain rfl : name = name' := by simpa using heq
      have hget := Table.get?_of_mem (nodup_keys_schemasOf hdocument) hmem
      have hget' := Table.get?_of_mem (nodup_keys_schemasOf hdocument) hmem'
      obtain rfl : node = node' := Option.some.inj (hget.symm.trans hget')
      obtain ⟨hpart, hobj⟩ := parts_of_operationNodes hop
      obtain ⟨hpart', hobj'⟩ := parts_of_operationNodes hop'
      rw [hdocument.marks op hpart op' hpart' hobj hobj' (hmark.symm.trans hmark')]

/-- The ids that a document of version 3 gives to its parts. -/
def partIds (document : Node) : List Assignment :=
  schemaIds .draft07 ["components", "schemas"] (schemasOf document) ++ operationIds (pathsOf document)

lemma key_of_partIds {document : Node} {a : Assignment} (h : a ∈ partIds document) : a.key = "$id" := by
  rcases List.mem_append.1 h with h | h
  · obtain ⟨e, -, rfl⟩ := List.mem_map.1 h
    rfl
  · obtain ⟨e, -, rfl⟩ := List.mem_map.1 h
    rfl

lemma recognise_v3 {document : Node} {r : Recognised} (h : recognise document = .ok r) (hv : r.openapi = some .v3) :
    r = ⟨.draft07, some .v3, partIds document⟩ := by
  unfold recognise at h
  dsimp only at h
  split at h
  all_goals
    obtain ⟨draft, -, h⟩ := bind_eq_ok.1 h
    cases draft with
    | some dialect =>
      cases h
      cases hv
    | none =>
      dsimp only at h
      split_ifs at h
      · cases h
        cases hv
      · cases h
        rfl
      · cases h
        cases hv

/-- The schema of a document of version 3 is the document with these ids, and maybe with one for the whole. -/
lemma toSchema_v3 {document : Node} {url : Option String} {s : Schema Node} (h : toSchema document url = .ok s)
    (hv : s.openapi = some .v3) : s.dialect = .draft07 ∧ ∃ own : List Assignment, (∀ a ∈ own, a.key = "$id") ∧
      s.content = assign (partIds document ++ own) document := by
  unfold toSchema at h
  obtain ⟨r, hr, h⟩ := bind_eq_ok.1 h
  cases h
  obtain rfl := recognise_v3 hr hv
  refine ⟨rfl, _, fun a ha => ?_, rfl⟩
  cases url with
  | none => cases ha
  | some url =>
    rw [List.mem_singleton.1 ha]
    rfl

/-- The first id that is meant for an operation is that of its place. -/
lemma find?_partIds {document op : Node} (hdocument : IsRegular document) (hnames : NamesOperations document)
    (hop : op ∈ operationNodes document) (own : List Assignment) : ∃ a tokens,
      (partIds document ++ own).find? (·.mark = op.mark) = some a ∧ IsNamed document op tokens ∧
        a.id = "#" ++ Pointer.fragment tokens := by
  rw [partIds, List.find?_append, List.find?_append]
  cases hschema : (schemaIds .draft07 ["components", "schemas"] (schemasOf document)).find? (·.mark = op.mark) with
  | some a =>
    have hmark := List.find?_some hschema
    obtain ⟨⟨name, node⟩, he, rfl⟩ := List.mem_map.1 (List.mem_of_find?_eq_some hschema)
    exact ⟨_, _, rfl, Or.inr ⟨name, node, he, by simpa using hmark, rfl⟩, rfl⟩
  | none =>
    -- the operation itself is among those that have ids, and no other part has its mark
    have hnodes : ∀ {e}, e ∈ operations (pathsOf document) → e.2.2 ∈ operationNodes document := by
      intro e he
      rw [operationNodes, ← operations_eq]
      exact List.mem_map_of_mem he
    obtain ⟨e, he, rfl⟩ : ∃ e ∈ operations (pathsOf document), e.2.2 = op := by
      rw [operationNodes, ← operations_eq] at hop
      exact List.mem_map.1 hop
    cases hfind : (operationIds (pathsOf document)).find? (·.mark = e.2.2.mark) with
    | none =>
      have hnot := List.find?_eq_none.1 hfind _ (List.mem_map_of_mem he)
      simp at hnot
    | some a =>
      have hmark := List.find?_some hfind
      obtain ⟨⟨path, method, op⟩, he', rfl⟩ := List.mem_map.1 (List.mem_of_find?_eq_some hfind)
      obtain ⟨hpart, hobj⟩ := parts_of_operationNodes (hnodes he)
      obtain ⟨hpart', hobj'⟩ := parts_of_operationNodes (hnodes he')
      obtain rfl : op = e.2.2 := hdocument.marks op hpart' _ hpart hobj' hobj (by simpa using hmark)
      obtain ⟨id, hid⟩ := Option.isSome_iff_exists.1 (hnames.named _ hop)
      refine ⟨_, ["paths", id], rfl, Or.inl ⟨id, hid, rfl⟩, ?_⟩
      rw [operationId?] at hid
      simp only [operationNames, hid]

/-- An operation that discovery reports, with the operation of the document that it is. -/
structure IsReport (document : Node) (ids : List Assignment) (ground : String) (op : Node) (s : Schema Node) : Prop where
  address : ∃ tokens, IsNamed document op tokens ∧ s.address = ⟨locator ground tokens⟩
  responses : member s.content "responses" = (member op "responses").map (assign ids)
  operation : s.operation = true

lemma isReport_of_copy {document op copy : Node} {s s' : Schema Node} {own : List Assignment} {ground : String}
    (hdocument : IsRegular document) (hnames : NamesOperations document) (hop : op ∈ operationNodes document)
    (hids : ∀ a ∈ partIds document ++ own, a.key = "$id") (hdialect : s.dialect = .draft07)
    (hplace : ∀ tokens a, Pointer.IsPlace tokens →
      Address.within ("#" ++ Pointer.fragment tokens) (rootScope s) = .ok a → a = ⟨locator ground tokens⟩)
    (hcopy : Discovery.IsCopy (assign (partIds document ++ own) op) copy)
    (hreport : Discovery.reportOf s ⟨copy, rootScope s, true⟩ = some s') :
    IsReport document (partIds document ++ own) ground op s' := by
  obtain ⟨a, tokens, hfind, hnamed, hid⟩ := find?_partIds hdocument hnames hop own
  have hmember := member_id_assign hids (parts_of_operationNodes hop).2 (hnames.noId op hop) hfind
  have hdeclared : copy.declaredId s.dialect = some ("#" ++ Pointer.fragment tokens) := by
    have hcopied : copy.fields.get? "$id" = some (.atom op.mark (.str a.id)) :=
      (hcopy "$id" (by decide) (by decide)).trans hmember
    rw [hdialect, Node.declaredId, Dialect.idKeyword, hcopied, hid]
    exact Option.filter_eq_some_iff.2 ⟨rfl, by simp⟩
  have hresponses : member copy "responses" = (member op "responses").map (assign (partIds document ++ own)) :=
    (hcopy "responses" (by decide) (by decide)).trans (member_assign hids op (by decide))
  simp only [Discovery.reportOf, hdeclared, if_true, Option.bind_some] at hreport
  split at hreport
  · next address haddress =>
    cases hreport
    exact ⟨⟨tokens, hnamed, hplace tokens address hnamed.isPlace haddress⟩, hresponses, rfl⟩
  · cases hreport

/-- Reports from the list that they are chosen from. -/
lemma forall₂_of_sublist_filterMap {α β γ : Type} {R : α → β → Prop} {f : β → Option γ} {xs : List α} {ys : List β}
    {zs : List γ} (h : List.Forall₂ R xs ys) (hz : zs.Sublist (ys.filterMap f)) :
    ∃ xs', xs'.Sublist xs ∧ List.Forall₂ (fun x z => ∃ y, R x y ∧ f y = some z) xs' zs := by
  induction h generalizing zs with
  | nil =>
    obtain rfl := List.sublist_nil.1 hz
    exact ⟨[], List.Sublist.slnil, .nil⟩
  | @cons x y xs ys hxy _ ih =>
    cases hf : f y with
    | none =>
      rw [List.filterMap_cons_none hf] at hz
      obtain ⟨xs', hsub, hall⟩ := ih hz
      exact ⟨xs', hsub.cons x, hall⟩
    | some z =>
      rw [List.filterMap_cons_some hf] at hz
      rcases List.sublist_cons_iff.1 hz with hrest | ⟨zs', rfl, hrest⟩
      · obtain ⟨xs', hsub, hall⟩ := ih hrest
        exact ⟨xs', hsub.cons x, hall⟩
      · obtain ⟨xs', hsub, hall⟩ := ih hrest
        exact ⟨x :: xs', hsub.cons_cons x, .cons ⟨y, hxy, hf⟩ hall⟩

/-- **The operations that discovery finds** are operations of the document, each once, and their addresses are those of
their places. -/
theorem operations_found {document : Node} {url : Option String} {s : Schema Node} (hdocument : IsRegular document)
    (hnames : NamesOperations document) (h : toSchema document url = .ok s) (hv : s.openapi = some .v3) (refs : Refs)
    (next : ℕ) : ∃ ids ground, (∀ a ∈ ids, a.key = "$id") ∧ IsGround ground ∧
      (∀ tokens a, Pointer.IsPlace tokens → Address.within ("#" ++ Pointer.fragment tokens) (rootScope s) = .ok a →
        a = ⟨locator ground tokens⟩) ∧
      ∃ nodes : List Node, nodes.Sublist (operationNodes document) ∧
        List.Forall₂ (IsReport document ids ground) nodes (walk s refs next).operations := by
  obtain ⟨hdialect, own, hown, hcontent⟩ := toSchema_v3 h hv
  obtain ⟨ground, hground, hplace⟩ := Address.within_place (rootScope s)
  have hids : ∀ a ∈ partIds document ++ own, a.key = "$id" := fun a ha =>
    (List.mem_append.1 ha).elim key_of_partIds (hown a)
  refine ⟨partIds document ++ own, ground, hids, hground, hplace, ?_⟩
  rcases Discovery.walk_operations hv refs next with hnil | ⟨refs', copies, last, hcopies, hsub⟩
  · exact ⟨[], List.nil_sublist _, hnil ▸ .nil⟩
  have hoperations : (((s.content.fields.get? "paths").map (·.fields.values)).getD []).flatMap operationsIn =
      (operationNodes document).map (assign (partIds document ++ own)) := by
    have hpaths := member_assign hids document (show "paths" ≠ "$id" by decide)
    rw [← hcontent] at hpaths
    rw [show s.content.fields.get? "paths" = member s.content "paths" from rfl, hpaths, operationNodes, pathsOf, entries]
    cases member document "paths" with
    | none => rfl
    | some paths => exact operations_assign hids paths
  have hcopied := Discovery.copyAllOperations_isCopy hcopies
  rw [hoperations, List.forall₂_map_left_iff] at hcopied
  obtain ⟨nodes, hnodes, hall⟩ := forall₂_of_sublist_filterMap hcopied hsub
  have hmem : ∀ op ∈ nodes, op ∈ operationNodes document := fun op hop => hnodes.subset hop
  refine ⟨nodes, hnodes, ((List.forall₂_and_left _ _).2 ⟨hmem, hall⟩).imp ?_⟩
  rintro op s' ⟨hop, copy, hcopy, hreport⟩
  exact isReport_of_copy hdocument hnames hop hids hdialect hplace hcopy hreport

end Document

end Typings
