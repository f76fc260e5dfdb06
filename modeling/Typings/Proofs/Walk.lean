import Mathlib.Logic.Relation
import Typings.Discovery
import Typings.Proofs.Address
import Typings.Proofs.Outcome
import Typings.Proofs.Table

/-!
What a walk leaves behind. A walk through a schema reaches every node in the places of schemas inside it; where such a
node is a reference, its text is now an address in its one form, and the address has been reported (`walk_covers`). Only
an address that cannot be joined, or operations of the wrong kind, cut a walk short.
-/

namespace Typings

/-! ### References in nodes -/

/-- A reference has its current text, or the one it was written with. -/
lemma Node.reference?_eq (refs : Refs) (node : Node) :
    node.reference? refs = (node.reference? []).map fun text => (refs.get? node.mark).getD text := by
  cases node with
  | atom m a => rfl
  | arr m xs => rfl
  | obj m fs =>
    simp only [Node.reference?, Node.get?, Node.mark]
    cases Table.get? fs "$ref" with
    | none => rfl
    | some v =>
      rcases v with ⟨n, _ | _ | _ | s | _⟩ | ⟨n, xs⟩ | ⟨n, fs'⟩ <;> rfl

/-- Whether a node is a reference. -/
def Node.IsReference (node : Node) : Prop := (node.reference? []).isSome

lemma Node.isReference_of_reference? {refs : Refs} {node : Node} {text : String} (h : node.reference? refs = some text) :
    node.IsReference := by
  rw [Node.reference?_eq] at h
  obtain ⟨s, hs, -⟩ := Option.map_eq_some_iff.1 h
  exact Option.isSome_iff_exists.2 ⟨s, hs⟩

/-- Once a reference has a current text, it is that one. -/
lemma Node.get?_mark_of_reference? {refs : Refs} {node : Node} {text : String} (h : node.reference? refs = some text)
    (hm : refs.has node.mark = true) : refs.get? node.mark = some text := by
  rw [Node.reference?_eq] at h
  obtain ⟨s, -, hs⟩ := Option.map_eq_some_iff.1 h
  obtain ⟨t, ht⟩ := Table.has_iff.1 hm
  rw [ht, Option.getD_some] at hs
  rw [ht, hs]

namespace Discovery

/-! ### Reaching and covering -/

/-- **Reaching**: from a node through the places of schemas to a node inside it. -/
def Reaches (dialect : Dialect) (openapi : Option OpenApi) : Node → Node → Prop :=
  Relation.ReflTransGen fun a b => b ∈ children dialect openapi a

/-- Every reference that a node reaches has a current text. -/
def CoversNode (dialect : Dialect) (openapi : Option OpenApi) (refs : Refs) (node : Node) : Prop :=
  ∀ inner, Reaches dialect openapi node inner → inner.IsReference → refs.has inner.mark = true

/-- **Covering**: every reference that the content of a schema reaches has a current text. -/
def Covers (refs : Refs) (s : Schema Node) : Prop := CoversNode s.dialect s.openapi refs s.content

/-- Texts are never lost. -/
def Extends (refs refs' : Refs) : Prop := ∀ m, refs.has m = true → refs'.has m = true

lemma Extends.refl (refs : Refs) : Extends refs refs := fun _ h => h

lemma Extends.trans {a b c : Refs} (h : Extends a b) (h' : Extends b c) : Extends a c := fun m hm => h' m (h m hm)

lemma CoversNode.mono {dialect : Dialect} {openapi : Option OpenApi} {refs refs' : Refs} {node : Node}
    (h : CoversNode dialect openapi refs node) (he : Extends refs refs') : CoversNode dialect openapi refs' node :=
  fun inner hr hi => he _ (h inner hr hi)

lemma Covers.mono {refs refs' : Refs} {s : Schema Node} (h : Covers refs s) (he : Extends refs refs') : Covers refs' s :=
  CoversNode.mono h he

/-- A node is covered if it is, and all its children are. -/
lemma CoversNode.of_children {dialect : Dialect} {openapi : Option OpenApi} {refs : Refs} {node : Node}
    (hself : node.IsReference → refs.has node.mark = true)
    (hchildren : ∀ child ∈ children dialect openapi node, CoversNode dialect openapi refs child) :
    CoversNode dialect openapi refs node := by
  intro inner hr hi
  rcases Relation.ReflTransGen.cases_head hr with rfl | ⟨child, hc, hr'⟩
  · exact hself hi
  · exact hchildren child hc inner hr' hi

/-- Only objects hold references, and only they have children. -/
lemma coversNode_of_not_object {dialect : Dialect} {openapi : Option OpenApi} {refs : Refs} {node : Node}
    (h : ¬ node.isObject = true) : CoversNode dialect openapi refs node := by
  have hfields : node.fields = [] := by cases node <;> simp_all [Node.isObject, Node.fields]
  have hempty : ∀ places : Table String Place, childrenAt places [] = [] := by
    intro places
    simp [childrenAt]
  refine CoversNode.of_children (fun hi => ?_) fun child hc => ?_
  · cases node with
    | atom m a => simp [Node.IsReference, Node.reference?, Node.get?] at hi
    | arr m xs => simp [Node.IsReference, Node.reference?, Node.get?] at hi
    | obj m fs => exact absurd rfl h
  · rw [children, hfields, hempty] at hc
    cases hc

/-! ### One visit -/

/-- **What a walk may do to its trail**: no text is lost, no report is taken back, and every text that is new is an address
in its one form that is reported. -/
structure Leads (t t' : Trail) : Prop where
  /-- No text is lost. -/
  refs : Extends t.refs t'.refs
  /-- No report is taken back. -/
  found : t.found ⊆ t'.found
  /-- New texts are reported addresses. -/
  texts : ∀ m text, t'.refs.get? m = some text → t.refs.get? m = some text ∨
    Address.IsCanonical text ∧ Found.reference ⟨text⟩ ∈ t'.found

lemma Leads.refl (t : Trail) : Leads t t := ⟨Extends.refl _, List.Subset.refl _, fun _ _ h => Or.inl h⟩

lemma Leads.trans {t₁ t₂ t₃ : Trail} (h : Leads t₁ t₂) (h' : Leads t₂ t₃) : Leads t₁ t₃ := by
  refine ⟨h.refs.trans h'.refs, fun _ hf => h'.found (h.found hf), fun m text hm => ?_⟩
  rcases h'.texts m text hm with hm | hm
  · exact (h.texts m text hm).imp_right fun ⟨hc, hf⟩ => ⟨hc, h'.found hf⟩
  · exact Or.inr hm

/-- Entering a node reports the schema at the node, or nothing. -/
lemma enter_yields (s : Schema Node) (visit : Visit) (t : Trail) :
    Yields (enter s visit) t
      (fun _ t' => t'.refs = t.refs ∧ (t'.found = t.found ∨ ∃ s' refs, t'.found = .schema s' refs :: t.found ∧
        s'.dialect = s.dialect ∧ s'.openapi = s.openapi ∧ s'.content = visit.node))
      (fun f _ => f = .badUrl) := by
  unfold enter
  split
  · exact Yields.of_pure ⟨rfl, Or.inl rfl⟩
  · next id _ =>
    refine Yields.bind ?_
    cases h : Address.within id visit.scope with
    | error f =>
      have hf : f = .badUrl := Address.within_error h
      exact Yields.of_throw hf
    | ok address =>
      exact Yields.of_pure (Yields.bind (Yields.of_get (Yields.bind (Yields.of_modify
        (Yields.of_pure ⟨rfl, Or.inr ⟨_, _, rfl, rfl, rfl, rfl⟩⟩)))))

/-- What canonizing writes, if it writes at all. -/
lemma canonize_writes (node : Node) (scope : List String) (t : Trail) :
    Yields (canonize node scope) t
      (fun _ t' => t' = t ∨ node.IsReference ∧ ∃ a, t' = ⟨t.refs.set node.mark a.text, .reference a :: t.found⟩)
      fun _ _ => True := by
  refine Yields.bind (Yields.of_get ?_)
  cases hr : node.reference? t.refs with
  | none => exact Yields.of_pure (Or.inl rfl)
  | some text =>
    refine Yields.bind ?_
    cases Address.within text scope with
    | error f => exact Yields.of_throw trivial
    | ok a =>
      refine Yields.of_pure (Yields.bind (Yields.of_modify (Yields.of_modify ?_)))
      exact Or.inr ⟨Node.isReference_of_reference? hr, a, rfl⟩

/-- Canonizing a reference gives it a current text. -/
lemma canonize_yields (node : Node) (scope : List String) (t : Trail) :
    Yields (canonize node scope) t
      (fun _ t' => Leads t t' ∧ (node.IsReference → t'.refs.has node.mark = true) ∧
        ∀ s' refs, Found.schema s' refs ∈ t'.found → Found.schema s' refs ∈ t.found)
      (fun f _ => f = .badUrl) := by
  unfold canonize
  refine Yields.bind (Yields.of_get ?_)
  cases hr : node.reference? t.refs with
  | none =>
    refine Yields.of_pure ⟨Leads.refl t, fun hi => ?_, fun _ _ h => h⟩
    rw [Node.reference?_eq, Option.map_eq_none_iff] at hr
    rw [Node.IsReference, hr] at hi
    cases hi
  | some text =>
    refine Yields.bind ?_
    cases ha : Address.within text scope with
    | error f => exact Yields.of_throw (Address.within_error ha)
    | ok address =>
      refine Yields.of_pure (Yields.bind (Yields.of_modify (Yields.of_modify ⟨⟨?_, ?_, ?_⟩, ?_, ?_⟩)))
      · exact fun m hm => Table.has_set_of_has hm
      · exact List.subset_cons_self _ _
      · intro m new hm
        rw [Table.get?_set] at hm
        split_ifs at hm
        · cases hm
          exact Or.inr ⟨Address.isCanonical_within ha, List.mem_cons_self⟩
        · exact Or.inl hm
      · exact fun _ => Table.has_set.2 (Or.inl rfl)
      · intro s' refs h
        simpa using h

/-! ### All visits -/

/-- What visits leave behind: the nodes to be visited are covered, and so is every schema that is reported on the way. -/
structure Visited (s : Schema Node) (visits : List Visit) (t t' : Trail) : Prop where
  /-- The trail goes on from the old one. -/
  leads : Leads t t'
  /-- The nodes are covered. -/
  nodes : ∀ visit ∈ visits, CoversNode s.dialect s.openapi t'.refs visit.node
  /-- Reported schemas are covered. -/
  schemas : ∀ s' refs, Found.schema s' refs ∈ t'.found → Found.schema s' refs ∈ t.found ∨ Covers t'.refs s'

/-- **Visits cover what they visit.** The induction is along the walk: a node is covered by its own visit and by the visits
to its children, which stand in front of the others. -/
theorem run_yields (s : Schema Node) (visits : List Visit) (t : Trail) :
    Yields (run s visits) t (fun _ t' => Visited s visits t t') (fun f _ => f = .badUrl) := by
  induction visits using run.induct s generalizing t with
  | case1 =>
    rw [run]
    exact Yields.of_pure ⟨Leads.refl t, fun _ h => absurd h List.not_mem_nil, fun _ _ h => Or.inl h⟩
  | case2 visit rest hobj ih =>
    rw [run, if_pos hobj]
    refine Yields.bind ((enter_yields s visit t).mono ?_ fun _ _ h => h)
    rintro scope t₁ ⟨hrefs, hfound⟩
    refine Yields.bind ((canonize_yields visit.node scope t₁).mono ?_ fun _ _ h => h)
    rintro ⟨⟩ t₂ ⟨hleads, hself, hsame⟩
    refine (ih scope t₂).mono ?_ fun _ _ h => h
    rintro ⟨⟩ t₃ ⟨hleads', hnodes, hschemas⟩
    have hnode : CoversNode s.dialect s.openapi t₃.refs visit.node := by
      refine CoversNode.of_children (fun hi => hleads'.refs _ (hself hi)) fun child hc => ?_
      exact hnodes ⟨child, scope, false⟩ (List.mem_append_left _ (List.mem_map_of_mem hc))
    have hstart : Leads t t₁ := by
      refine ⟨hrefs ▸ Extends.refl _, ?_, fun m text h => Or.inl (hrefs ▸ h)⟩
      rcases hfound with h | ⟨s', refs, h, -⟩
      · exact h ▸ List.Subset.refl _
      · exact h ▸ List.subset_cons_self _ _
    refine ⟨(hstart.trans hleads).trans hleads', fun v hv => ?_, fun s' refs h => ?_⟩
    · rcases List.mem_cons.1 hv with rfl | hv
      · exact hnode
      · exact hnodes v (List.mem_append_right _ hv)
    · rcases hschemas s' refs h with h | h
      · have h₁ := hsame s' refs h
        rcases hfound with e | ⟨s'', refs', e, hd, ho, hc⟩
        · exact Or.inl (e ▸ h₁)
        · rw [e] at h₁
          rcases List.mem_cons.1 h₁ with h₁ | h₁
          · obtain ⟨rfl, rfl⟩ := Found.schema.inj h₁
            refine Or.inr ?_
            rw [Covers, hd, ho, hc]
            exact hnode
          · exact Or.inl h₁
      · exact Or.inr h
  | case3 visit rest hobj ih =>
    rw [run, if_neg hobj]
    refine (ih t).mono ?_ fun _ _ h => h
    rintro ⟨⟩ t' ⟨hleads, hnodes, hschemas⟩
    refine ⟨hleads, fun v hv => ?_, hschemas⟩
    rcases List.mem_cons.1 hv with rfl | hv
    · exact coversNode_of_not_object hobj
    · exact hnodes v hv

/-! ### Copies of operations -/

lemma parameterKey_error {node : Node} {f : Failure} (h : parameterKey node = .error f) : f = .badKind := by
  unfold parameterKey at h
  split at h
  · cases h
  · dsimp only at h
    split at h
    all_goals
      cases h
      try rfl

lemma mergeParameters_error {shared own : List Node} {f : Failure} (h : mergeParameters shared own = .error f) :
    f = .badKind := by
  unfold mergeParameters at h
  rcases bind_eq_error.1 h with h | ⟨_, -, h⟩
  · obtain ⟨x, -, hx⟩ := mapM_eq_error h
    exact parameterKey_error hx
  · rcases bind_eq_error.1 h with h | ⟨_, -, h⟩
    · obtain ⟨x, -, hx⟩ := mapM_eq_error h
      exact parameterKey_error hx
    · cases h

lemma copyOperations_error {refs : Refs} {item : Node} {next : ℕ} {methods : List String} {f : Failure}
    (h : copyOperations refs item next methods = .error f) : f = .badKind := by
  induction methods generalizing next with
  | nil => cases h
  | cons method methods ih =>
    rw [copyOperations] at h
    split at h
    · have htail : ∀ {copied : Node},
          (do let rest ← copyOperations refs item (next + 2) methods; pure (copied :: rest.1, rest.2)) = .error f →
            f = .badKind := by
        intro copied h
        rcases bind_eq_error.1 h with h | ⟨rest, -, h⟩
        · exact ih h
        · cases h
      dsimp only at h
      split_ifs at h
      · exact htail h
      · rcases bind_eq_error.1 h with h | ⟨merged, -, h⟩
        · exact mergeParameters_error h
        · exact htail h
    · exact ih h

/-- Copying operations fails for one reason only. -/
lemma copyAllOperations_error {refs : Refs} {next : ℕ} {items : List Node} {f : Failure}
    (h : copyAllOperations refs next items = .error f) : f = .badKind := by
  induction items generalizing next with
  | nil => cases h
  | cons item items ih =>
    rw [copyAllOperations] at h
    rcases bind_eq_error.1 h with h | ⟨first, -, h⟩
    · exact copyOperations_error h
    · rcases bind_eq_error.1 h with h | ⟨rest, -, h⟩
      · exact ih h
      · cases h

/-! ### The whole walk -/

/-- What a whole walk leaves behind. -/
structure Walked (s : Schema Node) (old : Refs) (o : Outcome) : Prop where
  /-- No text is lost. -/
  refs : Extends old o.refs
  /-- New texts are reported addresses. -/
  texts : ∀ m text, o.refs.get? m = some text → old.get? m = some text ∨
    Address.IsCanonical text ∧ Found.reference ⟨text⟩ ∈ o.found
  /-- The schema is covered. -/
  root : Covers o.refs s
  /-- Reported schemas are covered. -/
  schemas : ∀ s' refs, Found.schema s' refs ∈ o.found → Covers o.refs s'

/-- A walk is the visit to its root and the visits to what is inside. -/
lemma walked_of_visited {s : Schema Node} {refs : Refs} {visits : List Visit} {t t' : Trail} {next : ℕ}
    (hroot : Leads ⟨refs, []⟩ t ∧ (s.content.IsReference → t.refs.has s.content.mark = true) ∧
      ∀ s' refs', Found.schema s' refs' ∈ t.found → Found.schema s' refs' ∈ ([] : List Found))
    (hv : Visited s visits t t')
    (hsub : ∀ child ∈ children s.dialect s.openapi s.content, ∃ visit ∈ visits, visit.node = child) :
    Walked s refs ⟨t'.refs, next, t'.found.reverse, none⟩ := by
  obtain ⟨hleads, hself, hnone⟩ := hroot
  refine ⟨hleads.refs.trans hv.leads.refs, fun m text hm => ?_, ?_, fun s' refs' h => ?_⟩
  · rcases (hleads.trans hv.leads).texts m text hm with h | ⟨hc, hf⟩
    · exact Or.inl h
    · exact Or.inr ⟨hc, List.mem_reverse.2 hf⟩
  · refine CoversNode.of_children (fun hi => hv.leads.refs _ (hself hi)) fun child hc => ?_
    obtain ⟨visit, hvisit, rfl⟩ := hsub child hc
    exact hv.nodes visit hvisit
  · rcases hv.schemas s' refs' (List.mem_reverse.1 h) with h | h
    · exact absurd (hnone s' refs' h) List.not_mem_nil
    · exact h

/-- **A walk that is not cut short covers its schema** and all that it reports; what cuts it short is a URL or a parameter
of the wrong kind. -/
theorem walk_covers (s : Schema Node) (refs : Refs) (next : ℕ) :
    ((walk s refs next).failure = none → Walked s refs (walk s refs next)) ∧
      ∀ f, (walk s refs next).failure = some f → f = .badUrl ∨ f = .badKind := by
  unfold walk
  dsimp only
  split
  · next hobj =>
    refine ⟨fun _ => ⟨Extends.refl _, fun _ _ h => Or.inl h, ?_, fun _ _ h => absurd h List.not_mem_nil⟩, nofun⟩
    exact coversNode_of_not_object (by simpa using hobj)
  have hroot := canonize_yields s.content (rootScope s) ⟨refs, []⟩
  split
  · next f t hc =>
    refine ⟨nofun, fun f' hf' => ?_⟩
    cases hf'
    exact Or.inl (hroot.bad_of_error hc)
  · next t hc =>
    split
    · next f hcopies =>
      refine ⟨nofun, fun f' hf' => ?_⟩
      cases hf'
      split_ifs at hcopies
      exact Or.inr (copyAllOperations_error hcopies)
    · next operations next' _ =>
      have hrun := run_yields s (operations.map (⟨·, rootScope s, true⟩) ++
        (children s.dialect s.openapi s.content).map (⟨·, rootScope s, false⟩)) t
      split
      · next f t' ht' =>
        refine ⟨nofun, fun f' hf' => ?_⟩
        cases hf'
        exact Or.inl (hrun.bad_of_error ht')
      · next t' ht' =>
        refine ⟨fun _ => walked_of_visited (hroot.good_of_ok hc) (hrun.good_of_ok ht') fun child hchild => ?_, nofun⟩
        exact ⟨⟨child, rootScope s, false⟩, List.mem_append_right _ (List.mem_map_of_mem hchild), rfl⟩

end Discovery

end Typings
