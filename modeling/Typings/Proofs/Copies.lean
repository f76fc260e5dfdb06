import Typings.Proofs.Replacement

/-!
Copies of operations. Discovery reports an operation as a copy that has the parameters of its path as well, those that it does not
override. Which ones it overrides is decided on the parameters as they are written, before references are followed
(`overrides`). All these parameters are parts of the document, in which a mark stands for one object. Main statements:

* `Discovery.copied_of_walk`: a walk reports copies of the operations of path items;
* `Discovery.IsCopied.listed_eq`: the parameters of a copy;
* `Document.IsRegular.eq_of_isSame`: parts of a document that are the very same part are equal.
-/

namespace Typings

namespace Discovery

open Document (operationsIn)
open Operation (listed)

/-! ### Which parameters are kept -/

/-- Whether a parameter of an operation overrides one of its path: both have keys, and the keys are equal. -/
def overrides (own shared : Node) : Bool :=
  match parameterKey shared, parameterKey own with
  | .ok k, .ok l => k.equals l
  | _, _ => false

/-- The parameters of a path that an operation does not override. -/
def kept (shared own : List Node) : List Node := shared.filter fun n => !own.any (overrides · n)

lemma any_equals {own : List Node} {keys : List ParameterKey} (h : own.mapM parameterKey = .ok keys) {n : Node}
    {k : ParameterKey} (hk : parameterKey n = .ok k) : keys.any k.equals = own.any (overrides · n) := by
  induction own generalizing keys with
  | nil =>
    cases h
    rfl
  | cons m own ih =>
    rw [List.mapM_cons] at h
    obtain ⟨l, hl, h⟩ := bind_eq_ok.1 h
    obtain ⟨ls, hls, h⟩ := bind_eq_ok.1 h
    cases h
    have hfirst : k.equals l = overrides m n := by
      unfold overrides
      rw [hk, hl]
    rw [List.any_cons, List.any_cons, ih hls, hfirst]

lemma kept_eq {shared own : List Node} {overridden keys : List ParameterKey} (hown : own.mapM parameterKey = .ok overridden)
    (hshared : shared.mapM parameterKey = .ok keys) :
    ((shared.zip keys).filter fun e => !overridden.any e.2.equals).map (·.1) = kept shared own := by
  unfold kept
  induction shared generalizing keys with
  | nil => rfl
  | cons n shared ih =>
    rw [List.mapM_cons] at hshared
    obtain ⟨k, hk, hshared⟩ := bind_eq_ok.1 hshared
    obtain ⟨ks, hks, hshared⟩ := bind_eq_ok.1 hshared
    cases hshared
    rw [List.zip_cons_cons, List.filter_cons, List.filter_cons, any_equals hown hk]
    split_ifs
    · rw [List.map_cons, ih hks]
    · exact ih hks

/-- **Parameters are merged**: those of the path that are not overridden, then those of the operation. -/
lemma mergeParameters_eq {shared own merged : List Node} (h : mergeParameters shared own = .ok merged) :
    merged = kept shared own ++ own := by
  obtain ⟨overridden, hown, h⟩ := bind_eq_ok.1 h
  obtain ⟨keys, hshared, h⟩ := bind_eq_ok.1 h
  cases h
  rw [kept_eq hown hshared]

/-! ### Operations of path items -/

lemma copyAllOperations_copied {refs : Refs} {items : List Node} {next last : ℕ} {copies : List Node}
    (h : copyAllOperations refs next items = .ok (copies, last)) {copy : Node} (hcopy : copy ∈ copies) :
    ∃ item ∈ items, ∃ op ∈ operationsIn item, IsCopied refs item op copy := by
  induction items generalizing next last copies with
  | nil =>
    cases h
    cases hcopy
  | cons item items ih =>
    rw [copyAllOperations] at h
    obtain ⟨⟨first, after⟩, hfirst, h⟩ := bind_eq_ok.1 h
    obtain ⟨⟨others, last'⟩, hothers, h⟩ := bind_eq_ok.1 h
    cases h
    rcases List.mem_append.1 hcopy with hcopy | hcopy
    · obtain ⟨op, hop, hcopied⟩ := Document.exists_of_forall₂ (copyOperations_isCopied hfirst) hcopy
      exact ⟨item, List.mem_cons_self, op, hop, hcopied⟩
    · obtain ⟨item', hitem', hfound⟩ := ih hothers hcopy
      exact ⟨item', List.mem_cons_of_mem _ hitem', hfound⟩

/-- The parameters of a copy. -/
lemma IsCopied.listed_eq {refs : Refs} {item op copy : Node} (h : IsCopied refs item op copy) (hop : op.isObject = true) :
    listed copy = kept (listed item) (listed op) ++ listed op := by
  rcases op with ⟨m, a⟩ | ⟨m, xs⟩ | ⟨m, fs⟩
  · cases hop
  · cases hop
  · cases h with
    | plain mark hnone =>
      have hnone : listed item = [] := hnone
      have hcurrent : Node.current refs m "parameters" = id := rfl
      rw [hnone, kept, List.filter_nil, List.nil_append, listed, Node.copy, Node.fields,
        Table.get?_map fs (Node.current refs m), hcurrent, Option.map_id_fun]
      rfl
    | merged mark hall =>
      have hall := mergeParameters_eq hall
      rw [listed, Node.copy, Node.set, Node.fields, Table.get?_set_self]
      exact hall

lemma reportOf_eq_some {d s : Schema Node} {copy : Node} {scope : List String}
    (h : reportOf d ⟨copy, scope, true⟩ = some s) : s.content = copy ∧ s.operation = true := by
  unfold reportOf at h
  obtain ⟨id, -, h⟩ := Option.bind_eq_some_iff.1 h
  split at h
  · cases h
    exact ⟨rfl, rfl⟩
  · cases h

/-- **The operations that a walk reports** are copies of operations of path items. -/
lemma copied_of_walk {d s : Schema Node} (hv : d.openapi = some .v3) {refs : Refs} {next : ℕ}
    (hs : s ∈ (walk d refs next).operations) :
    s.operation = true ∧ ∃ refs' item op, item ∈ (Document.pathsOf d.content).values ∧ op ∈ operationsIn item ∧
      IsCopied refs' item op s.content := by
  rcases walk_operations hv refs next with hnil | ⟨refs', copies, last, hcopies, hsub⟩
  · rw [hnil] at hs
    cases hs
  · obtain ⟨copy, hcopy, hreport⟩ := List.mem_filterMap.1 (hsub.subset hs)
    obtain ⟨hcontent, hoperation⟩ := reportOf_eq_some hreport
    obtain ⟨item, hitem, op, hop, hcopied⟩ := copyAllOperations_copied hcopies hcopy
    refine ⟨hoperation, refs', item, op, ?_, hop, hcontent ▸ hcopied⟩
    rw [Document.pathsOf, Document.entries, Document.member]
    cases hpaths : d.content.fields.get? "paths" with
    | none =>
      rw [hpaths] at hitem
      cases hitem
    | some paths =>
      rw [hpaths] at hitem
      exact hitem

end Discovery

/-! ### Parts of a document with ids -/

namespace Document

open Operation (listed)

variable {ids : List Assignment}

/-- What an object is given is no object. -/
lemma mem_values_assignTo (hids : ∀ a ∈ ids, a.key = "$id") {m : ℕ} {fs : Table String Node} {x z : Node}
    (hx : x ∈ (assignTo ids m fs).values) (hz : z ∈ x.parts) (hobj : z.isObject = true) : x ∈ fs.values := by
  rcases assignTo_cases hids m fs with h | ⟨id, h, -⟩
  · rwa [h] at hx
  · rw [h] at hx
    rcases Table.mem_values_set hx with rfl | hx
    · obtain rfl := List.mem_singleton.1 hz
      cases hobj
    · exact hx

mutual

/-- The objects of a document with ids are the objects of the document with their ids. -/
theorem objects_assign (hids : ∀ a ∈ ids, a.key = "$id") : ∀ (x : Node) {z : Node}, z ∈ (assign ids x).parts →
    z.isObject = true → ∃ y ∈ x.parts, z = assign ids y
  | .atom m a, z, hz, hobj => by
    obtain rfl := List.mem_singleton.1 hz
    cases hobj
  | .arr m xs, z, hz, hobj => by
    rcases List.mem_cons.1 hz with rfl | hz
    · cases hobj
    · obtain ⟨y, hy, rfl⟩ := objects_assignItems hids xs hz hobj
      exact ⟨y, Node.parts_of_inner hy, rfl⟩
  | .obj m fs, z, hz, hobj => by
    rcases List.mem_cons.1 hz with rfl | hz
    · exact ⟨.obj m fs, Node.mem_parts_self _, rfl⟩
    · have hinner : z ∈ Node.innerFields (assignFields ids fs) := by
        rw [assign, Node.inner, Node.innerFields_eq] at hz
        obtain ⟨x, hx, hzx⟩ := List.mem_flatMap.1 hz
        rw [Node.innerFields_eq]
        exact List.mem_flatMap.2 ⟨x, mem_values_assignTo hids hx hzx hobj, hzx⟩
      obtain ⟨y, hy, rfl⟩ := objects_assignFields hids fs hinner hobj
      exact ⟨y, Node.parts_of_inner hy, rfl⟩

theorem objects_assignItems (hids : ∀ a ∈ ids, a.key = "$id") : ∀ (xs : List Node) {z : Node},
    z ∈ Node.innerItems (assignItems ids xs) → z.isObject = true → ∃ y ∈ Node.innerItems xs, z = assign ids y
  | [], _, hz, _ => absurd hz List.not_mem_nil
  | x :: rest, z, hz, hobj => by
    rcases List.mem_append.1 hz with hz | hz
    · obtain ⟨y, hy, rfl⟩ := objects_assign hids x hz hobj
      exact ⟨y, List.mem_append_left _ hy, rfl⟩
    · obtain ⟨y, hy, rfl⟩ := objects_assignItems hids rest hz hobj
      exact ⟨y, List.mem_append_right _ hy, rfl⟩

theorem objects_assignFields (hids : ∀ a ∈ ids, a.key = "$id") : ∀ (fs : List (String × Node)) {z : Node},
    z ∈ Node.innerFields (assignFields ids fs) → z.isObject = true → ∃ y ∈ Node.innerFields fs, z = assign ids y
  | [], _, hz, _ => absurd hz List.not_mem_nil
  | (_, x) :: rest, z, hz, hobj => by
    rcases List.mem_append.1 hz with hz | hz
    · obtain ⟨y, hy, rfl⟩ := objects_assign hids x hz hobj
      exact ⟨y, List.mem_append_left _ hy, rfl⟩
    · obtain ⟨y, hy, rfl⟩ := objects_assignFields hids rest hz hobj
      exact ⟨y, List.mem_append_right _ hy, rfl⟩

end

/-- In a document with ids, too, a mark stands for one object. -/
lemma IsRegular.eq_of_isSame {document x y : Node} (h : IsRegular document) (hids : ∀ a ∈ ids, a.key = "$id")
    (hx : x ∈ (assign ids document).parts) (hy : y ∈ (assign ids document).parts) (hobj : x.isObject = true)
    (hsame : x.isSame y = true) : x = y := by
  have hmark : ∀ z : Node, (assign ids z).mark = z.mark := by
    intro z
    cases z <;> rfl
  have hboth : y.isObject = true ∧ x.mark = y.mark := by
    rcases x with ⟨m, a⟩ | ⟨m, xs⟩ | ⟨m, fs⟩
    · cases hobj
    · cases hobj
    · rcases y with ⟨n, b⟩ | ⟨n, ys⟩ | ⟨n, gs⟩
      · cases hsame
      · cases hsame
      · exact ⟨rfl, of_decide_eq_true hsame⟩
  obtain ⟨x₀, hx₀, rfl⟩ := objects_assign hids document hx hobj
  obtain ⟨y₀, hy₀, rfl⟩ := objects_assign hids document hy hboth.1
  rw [isObject_assign] at hobj hboth
  rw [hmark, hmark] at hboth
  rw [h.marks x₀ hx₀ y₀ hy₀ hobj hboth.1 hboth.2]

lemma parts_of_listed {node x : Node} (h : x ∈ listed node) : x ∈ node.parts := by
  unfold listed at h
  cases hget : node.fields.get? "parameters" with
  | none =>
    rw [hget] at h
    cases h
  | some v =>
    rw [hget] at h
    refine Node.parts_trans (parts_of_member hget) (Node.parts_of_inner ?_)
    rcases v with ⟨m, a⟩ | ⟨m, xs⟩ | ⟨m, fs⟩
    · cases h
    · exact Node.mem_inner_arr h (Node.mem_parts_self x)
    · cases h

end Document

end Typings
