import Typings.Discovery
import Typings.Proofs.Outcome

/-!
Walks as traversals. A walk through a schema keeps a list of visits, with the scope of each visit beside it. A traversal needs
no list: it visits a node and then, by recursion, whatever stands inside the node, from left to right, with the ids that it
has come through. Main statement: `walk_eq_preorder`, a walk makes the reports of the traversal, in order, and leaves the same
texts of references behind, also where it is cut short.
-/

namespace Typings.Discovery

/-! ### The traversal -/

/-- How far a traversal has come. -/
structure Progress where
  /-- The current texts of references. -/
  refs : Refs
  /-- The reports, in order. -/
  events : List Found
  /-- The first mark that is not in use. -/
  next : ℕ

/-- A step of a traversal; what was done before a failure stays. -/
abbrev Journey := EStateM Failure Progress

/-- The address of a text inside ids. -/
def addressIn (text : String) (scope : List String) : Journey Address :=
  match Address.within text scope with
  | .ok address => pure address
  | .error f => throw f

/-- Report something after all that was reported so far. -/
def happen (event : Found) : Journey Unit := modify fun p => { p with events := p.events ++ [event] }

/-- Report the schema that a node declares itself to be, under the address that its id has inside the ids around it. The
result are the ids around what stands inside the node. -/
def declare (s : Schema Node) (operation : Bool) (scope : List String) (node : Node) : Journey (List String) :=
  match node.declaredId s.dialect with
  | none => pure scope
  | some id => do
    let address ← addressIn id scope
    let p ← get
    happen (.schema ⟨s.dialect, address, node, s.openapi, s.ancestors ++ [s.address], operation⟩ p.refs)
    return scope ++ [address.text]

/-- Give the reference that a node is its address for its text, and report it. -/
def refer (scope : List String) (node : Node) : Journey Unit := do
  let p ← get
  match node.reference? p.refs with
  | none => pure ()
  | some text =>
    let address ← addressIn text scope
    modify fun p => { p with refs := p.refs.set node.mark address.text }
    happen (.reference address)

mutual

/-- **The traversal of a node inside a schema**: its own id, then its reference, then what stands inside it. -/
def descend (s : Schema Node) (operation : Bool) (scope : List String) (node : Node) : Journey Unit :=
  if node.isObject then do
    let inside ← declare s operation scope node
    refer inside node
    descendAll s false inside (children s.dialect s.openapi node)
  else pure ()
termination_by (node.size, 0)
decreasing_by exact Prod.Lex.left _ _ (total_children_lt s.dialect s.openapi node)

/-- The traversal of several nodes, from left to right. -/
def descendAll (s : Schema Node) (operation : Bool) (scope : List String) (nodes : List Node) : Journey Unit :=
  match nodes with
  | [] => pure ()
  | node :: rest => do
    descend s operation scope node
    descendAll s operation scope rest
termination_by (total nodes, 1)
decreasing_by
  · simp only [total, Node.sizeItems]
    rw [Prod.lex_def]
    omega
  · have h : 0 < node.size := by cases node <;> simp only [Node.size] <;> omega
    exact Prod.Lex.left _ _ (by simp only [total, Node.sizeItems]; omega)

end

/-- The operations of an OpenAPI document, path by path and method by method, as copies with marks of their own. -/
def copied (s : Schema Node) : Journey (List Node) := do
  if s.openapi = some .v3 then
    let p ← get
    match operationCopies p.refs p.next s.content with
    | .error f => throw f
    | .ok (operations, next) =>
      set { p with next }
      return operations
  else return []

/-- **The traversal of a schema.** The content is not reported itself. Operations are visited before the children, and only
those of the whole content. -/
def preorder (s : Schema Node) : Journey Unit :=
  if s.content.isObject then do
    refer (rootScope s) s.content
    let operations ← copied s
    descendAll s true (rootScope s) operations
    descendAll s false (rootScope s) (children s.dialect s.openapi s.content)
  else pure ()

/-- The outcome of a traversal. -/
def Outcome.ofResult : EStateM.Result Failure Progress Unit → Outcome
  | .ok _ p => ⟨p.refs, p.next, p.events, none⟩
  | .error f p => ⟨p.refs, p.next, p.events, some f⟩

/-! ### Steps of walks and of traversals -/

/-- How far a walk has come. -/
def Trail.progress (t : Trail) (next : ℕ) : Progress := ⟨t.refs, t.found.reverse, next⟩

/-- The outcome of a step of a walk, as that of a step of a traversal. -/
def carried {α : Type} (next : ℕ) : EStateM.Result Failure Trail α → EStateM.Result Failure Progress α
  | .ok a t => .ok a (t.progress next)
  | .error f t => .error f (t.progress next)

/-- **A walk and a traversal in step**: from the same point they come to the same one, with the same value or failure. -/
def InStep {α : Type} (x : Walk α) (y : Journey α) : Prop := ∀ t next, y (t.progress next) = carried next (x t)

namespace InStep

variable {α β : Type} {x : Walk α} {y : Journey α} {f : α → Walk β} {g : α → Journey β}

lemma of_pure (a : α) : InStep (pure a) (pure a) := fun _ _ => rfl

lemma bind (h : InStep x y) (hf : ∀ a, InStep (f a) (g a)) : InStep (x >>= f) (y >>= g) := by
  intro t next
  have hy := h t next
  cases hx : x t with
  | ok a t' =>
    rw [hx] at hy
    rw [bind_of_ok hx, bind_of_ok hy]
    exact hf a t' next
  | error e t' =>
    rw [hx] at hy
    rw [bind_of_error hx, bind_of_error hy]
    rfl

/-- A step that depends on how far the walk has come. -/
lemma of_get {f : Trail → Walk β} {g : Progress → Journey β}
    (h : ∀ t next, g (t.progress next) (t.progress next) = carried next (f t t)) : InStep (get >>= f) (get >>= g) :=
  fun t next => h t next

end InStep

lemma addressIn_inStep (text : String) (scope : List String) :
    InStep (lift (Address.within text scope)) (addressIn text scope) := by
  intro t next
  unfold addressIn lift
  cases Address.within text scope with
  | ok address => rfl
  | error f => rfl

lemma progress_report (t : Trail) (f : Found) (refs : Refs) (next : ℕ) :
    Trail.progress ⟨refs, f :: t.found⟩ next = ⟨refs, t.found.reverse ++ [f], next⟩ := by
  rw [Trail.progress, List.reverse_cons]

lemma happen_inStep (f : Found) : InStep (report f) (happen f) :=
  fun t next => congrArg (EStateM.Result.ok ()) (progress_report t f t.refs next).symm

lemma enter_inStep (s : Schema Node) (visit : Visit) :
    InStep (enter s visit) (declare s visit.operation visit.scope visit.node) := by
  unfold enter declare
  cases visit.node.declaredId s.dialect with
  | none => exact InStep.of_pure _
  | some id =>
    refine (addressIn_inStep id visit.scope).bind fun address => InStep.of_get fun t next => ?_
    exact ((happen_inStep _).bind fun _ => InStep.of_pure _) t next

lemma canonize_inStep (node : Node) (scope : List String) : InStep (canonize node scope) (refer scope node) := by
  refine InStep.of_get fun t next => ?_
  have hrefs : (t.progress next).refs = t.refs := rfl
  rw [hrefs]
  cases node.reference? t.refs with
  | none => rfl
  | some text =>
    have hwrite : ∀ address : Address, InStep (modify fun t : Trail => { t with refs := t.refs.set node.mark address.text })
        (modify fun p => { p with refs := p.refs.set node.mark address.text }) := fun _ _ _ => rfl
    exact ((addressIn_inStep text scope).bind fun address => (hwrite address).bind fun _ => happen_inStep _) t next

/-! ### Lists of visits -/

/-- The traversal that a visit stands for. -/
def Visit.descend (s : Schema Node) (visit : Visit) : Journey Unit :=
  Discovery.descend s visit.operation visit.scope visit.node

lemma descendAll_eq (s : Schema Node) (operation : Bool) (scope : List String) (nodes : List Node) :
    descendAll s operation scope nodes = forM (nodes.map (Visit.mk · scope operation)) (Visit.descend s) := by
  induction nodes with
  | nil => rw [descendAll]; rfl
  | cons node nodes ih =>
    rw [descendAll, List.map_cons, List.forM_cons, ih]
    rfl

/-- **The visits on the list are traversals still to be made**, one after the other. The induction is along the walk: when a
node is visited its children come before the other visits, and the traversal of the node goes on with them. -/
theorem run_inStep (s : Schema Node) (visits : List Visit) : InStep (run s visits) (forM visits (Visit.descend s)) := by
  induction visits using run.induct s with
  | case1 =>
    rw [run]
    exact InStep.of_pure ()
  | case2 visit rest hobj ih =>
    have hforM : forM (visit :: rest) (Visit.descend s) = (do
        let inside ← declare s visit.operation visit.scope visit.node
        refer inside visit.node
        forM ((children s.dialect s.openapi visit.node).map (Visit.mk · inside false) ++ rest) (Visit.descend s)) := by
      rw [List.forM_cons, Visit.descend, Discovery.descend, if_pos hobj]
      simp only [bind_assoc, List.forM_append, descendAll_eq]
    rw [run, if_pos hobj, hforM]
    exact (enter_inStep s visit).bind fun inside => (canonize_inStep visit.node inside).bind fun _ => ih inside
  | case3 visit rest hobj ih =>
    have hskip : visit.descend s = pure () := by
      rw [Visit.descend, Discovery.descend, if_neg hobj]
    rw [run, if_neg hobj, List.forM_cons, hskip, pure_bind]
    exact ih

/-! ### Whole walks -/

/-- What a walk takes for the operations of a schema. -/
def copiesFor (s : Schema Node) (refs : Refs) (next : ℕ) : Except Failure (List Node × ℕ) :=
  if s.openapi = some .v3 then operationCopies refs next s.content else .ok ([], next)

variable {s : Schema Node} {t : Trail} {next : ℕ}

lemma copied_of_ok {operations : List Node} {last : ℕ} (h : copiesFor s t.refs next = .ok (operations, last)) :
    copied s (t.progress next) = .ok operations (t.progress last) := by
  unfold copied
  unfold copiesFor at h
  split_ifs at h ⊢
  · have hget : (get : Journey Progress) (t.progress next) = .ok (t.progress next) (t.progress next) := rfl
    rw [bind_of_ok hget]
    dsimp only [Trail.progress]
    rw [h]
    rfl
  · cases h
    rfl

lemma copied_of_error {f : Failure} (h : copiesFor s t.refs next = .error f) :
    copied s (t.progress next) = .error f (t.progress next) := by
  unfold copied
  unfold copiesFor at h
  split_ifs at h ⊢
  have hget : (get : Journey Progress) (t.progress next) = .ok (t.progress next) (t.progress next) := rfl
  rw [bind_of_ok hget]
  dsimp only [Trail.progress]
  rw [h]
  rfl

/-- The visits that are left after the root of a walk. -/
lemma run_rest (operations : List Node) : (do
      descendAll s true (rootScope s) operations
      descendAll s false (rootScope s) (children s.dialect s.openapi s.content)) (t.progress next) =
    carried next (run s (operations.map (Visit.mk · (rootScope s) true) ++
      (children s.dialect s.openapi s.content).map (Visit.mk · (rootScope s) false)) t) := by
  rw [← run_inStep, List.forM_append, ← descendAll_eq, ← descendAll_eq]

/-- **A walk is the traversal.** Both make the same reports in the same order, leave the same texts of references and the same
marks, and are cut short by the same failure at the same point. -/
theorem walk_eq_preorder (s : Schema Node) (refs : Refs) (next : ℕ) :
    walk s refs next = .ofResult (preorder s ⟨refs, [], next⟩) := by
  have hroot : refer (rootScope s) s.content ⟨refs, [], next⟩ =
      carried next (canonize s.content (rootScope s) ⟨refs, []⟩) := canonize_inStep s.content (rootScope s) ⟨refs, []⟩ next
  unfold walk preorder
  by_cases hobj : s.content.isObject = true
  · rw [if_pos hobj]
    simp only [hobj, Bool.not_true, Bool.false_eq_true, if_false, EStateM.run]
    cases hc : canonize s.content (rootScope s) ⟨refs, []⟩ with
    | error f t =>
      rw [hc] at hroot
      rw [bind_of_error hroot]
      rfl
    | ok _ t =>
      rw [hc] at hroot
      rw [bind_of_ok hroot]
      have hsame : (if s.openapi = some .v3 then operationCopies t.refs next s.content else .ok ([], next)) =
          copiesFor s t.refs next := rfl
      dsimp only
      rw [hsame]
      cases hcopies : copiesFor s t.refs next with
      | error f =>
        rw [bind_of_error (copied_of_error hcopies)]
        rfl
      | ok e =>
        obtain ⟨operations, last⟩ := e
        rw [bind_of_ok (copied_of_ok hcopies), run_rest]
        dsimp only
        cases run s (operations.map (Visit.mk · (rootScope s) true) ++
          (children s.dialect s.openapi s.content).map (Visit.mk · (rootScope s) false)) t with
        | ok _ t' => rfl
        | error f t' => rfl
  · rw [if_neg hobj]
    simp only [hobj, Bool.not_false, if_true]
    rfl

end Typings.Discovery
