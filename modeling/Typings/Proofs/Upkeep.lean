import Typings.Proofs.Closure

/-!
What whole runs uphold. A property of registries that every registration upholds is upheld by everything that is done to
a registry: taking documents in, replacing operations, resolving in rounds, also where a step fails. What a registration
needs of its schema is carried along: the schemas of documents have it, and parts taken out of schemas that have it.
Main statement: `Upheld.leftAll`, for any calls from any registry.
-/

namespace Typings

open Discovery (Found walk)

/-! ### Walks -/

namespace Discovery

/-- **A property of trails that walks through a schema uphold**, also where they are cut short. -/
structure Upheld (s : Schema Node) (P : Trail → Prop) : Prop where
  enter : ∀ visit t, (visit.operation = true → s.openapi = some .v3) → P t →
    Yields (enter s visit) t (fun _ => P) fun _ => P
  canonize : ∀ node scope t, P t → Yields (canonize node scope) t (fun _ => P) fun _ => P

namespace Upheld

variable {s : Schema Node} {P : Trail → Prop} (h : Upheld s P)
include h

lemma run {visits : List Visit} (hv : ∀ v ∈ visits, v.operation = true → s.openapi = some .v3) {t : Trail} (ht : P t) :
    Yields (run s visits) t (fun _ => P) fun _ => P := by
  -- along the recursion of the walk; the children that are put before the other visits are no operations
  induction visits using run.induct s generalizing t with
  | case1 =>
    rw [Discovery.run]
    exact Yields.of_pure ht
  | case2 visit rest hobj ih =>
    rw [Discovery.run, if_pos hobj]
    refine Yields.bind ((h.enter visit t (hv visit List.mem_cons_self) ht).mono (fun scope t₁ h₁ => ?_) fun _ _ h => h)
    refine Yields.bind ((h.canonize visit.node scope t₁ h₁).mono (fun _ t₂ h₂ => ?_) fun _ _ h => h)
    refine ih scope (fun v hmem => ?_) h₂
    rcases List.mem_append.1 hmem with hmem | hmem
    · obtain ⟨child, -, rfl⟩ := List.mem_map.1 hmem
      exact fun hoperation => absurd hoperation Bool.false_ne_true
    · exact hv v (List.mem_cons_of_mem _ hmem)
  | case3 visit rest hobj ih =>
    rw [Discovery.run, if_neg hobj]
    exact ih (fun v hmem => hv v (List.mem_cons_of_mem _ hmem)) ht

/-- What each step of a walk upholds, the walk upholds. -/
theorem walk {refs : Refs} (hp : P ⟨refs, []⟩) (next : ℕ) :
    ∃ t, P t ∧ (walk s refs next).refs = t.refs ∧ (walk s refs next).found = t.found.reverse := by
  have hroot := h.canonize s.content (rootScope s) ⟨refs, []⟩ hp
  unfold Discovery.walk
  dsimp only
  split
  · exact ⟨_, hp, rfl, rfl⟩
  · split
    · next t ht => exact ⟨t, hroot.bad_of_error ht, rfl, rfl⟩
    · next t ht =>
      have hstart : P t := hroot.good_of_ok ht
      split
      · exact ⟨t, hstart, rfl, rfl⟩
      · next operations _ hcopies =>
        have hvisits : ∀ v : Visit, v ∈ operations.map (Visit.mk · (rootScope s) true) ++
            (children s.dialect s.openapi s.content).map (Visit.mk · (rootScope s) false) →
            v.operation = true → s.openapi = some .v3 := by
          intro v hv hoperation
          split_ifs at hcopies with hopenapi
          · exact hopenapi
          · cases hcopies
            obtain ⟨child, -, rfl⟩ := List.mem_map.1 hv
            cases hoperation
        have hrun := h.run hvisits hstart
        split
        · next t' ht' => exact ⟨t', hrun.bad_of_error ht', rfl, rfl⟩
        · next t' ht' => exact ⟨t', hrun.good_of_ok ht', rfl, rfl⟩

end Upheld

end Discovery

/-! ### Registrations -/

namespace Action

/-- What registering a schema makes of a registry, whether the walk through it comes to its end or not. -/
structure Entered (s : Schema Node) (r r' : Registry) : Prop where
  refs : r'.refs = (walk s r.refs r.next).refs
  next : r'.next = (walk s r.refs r.next).next
  documents : r'.documents = r.documents
  schemas : ∀ s' ∈ r'.schemas.values,
    s' = s ∨ s' ∈ r.schemas.values ∨ ∃ refs, Found.schema s' refs ∈ (walk s r.refs r.next).found
  targets : ∀ s', some s' ∈ r'.references.values → some s' ∈ r.references.values
  noted : ∀ key, r.references.has key = true → r'.references.has key = true
  known : ∀ key, (r.lookup? key).isSome = true → (r'.lookup? key).isSome = true

lemma isSome_lookup? {r : Registry} {key : String} :
    (r.lookup? key).isSome = true ↔ r.schemas.has key = true ∨ ∃ s, r.references.get? key = some (some s) := by
  unfold Registry.lookup?
  rw [Option.isSome_or, Bool.or_eq_true]
  refine or_congr (by rfl) ?_
  cases r.references.get? key with
  | none => simp
  | some o => cases o <;> simp

/-- Noting an address takes no target away. -/
lemma addReference_known (a : Address) (r : Registry) :
    Yields (addReference a) r (fun _ r' => ∀ key, (r.lookup? key).isSome = true → (r'.lookup? key).isSome = true)
      fun _ _ => False := by
  refine Yields.of_modify fun key hkey => ?_
  split_ifs with hnew
  · exact hkey
  · rw [isSome_lookup?] at hkey ⊢
    refine hkey.imp_right ?_
    rintro ⟨s, hs⟩
    refine ⟨s, ?_⟩
    have hne : a.text ≠ key := by
      rintro rfl
      exact hnew (Table.has_iff.2 ⟨_, hs⟩)
    exact (Table.get?_set_of_ne hne).trans hs

/-- Addresses that lead to a schema go on doing so. -/
lemma takeUp_known (found : List Found) (r : Registry) :
    Yields (takeUp found) r (fun _ r' => ∀ key, (r.lookup? key).isSome = true → (r'.lookup? key).isSome = true)
      fun _ _ => False := by
  induction found generalizing r with
  | nil => exact Yields.of_pure fun _ h => h
  | cons f found ih =>
    cases f with
    | schema s refs =>
      refine Yields.bind ((addSchema_yields s r).mono ?_ fun _ _ h => h)
      rintro ⟨⟩ _ ⟨notices, rfl⟩
      refine (ih _).mono (fun _ r' h key hkey => h key ?_) fun _ _ h => h
      rw [isSome_lookup?] at hkey ⊢
      exact hkey.imp_left Table.has_set_of_has
    | reference a =>
      refine Yields.bind ((addReference_known a r).mono (fun _ r₁ h₁ => ?_) fun _ _ h => h)
      exact (ih r₁).mono (fun _ r' h key hkey => h key (h₁ key hkey)) fun _ _ h => h

theorem register_entered (s : Schema Node) (r : Registry) :
    Yields (register s) r (fun _ r' => Entered s r r') fun _ r' => Entered s r r' := by
  unfold register
  refine Yields.bind (Yields.of_modify (Yields.bind ((addSchema_yields s _).mono ?_ fun _ _ h => h.elim)))
  rintro ⟨⟩ _ ⟨notices, rfl⟩
  refine Yields.bind (Yields.of_get (Yields.bind ?_))
  refine ((takeUp_yields _ _).and (takeUp_known _ _)).mono ?_ fun _ _ h => h.1.elim
  rintro ⟨⟩ r₂ ⟨htaken, hknown⟩
  have hentered : Entered s r { r₂ with refs := (walk s r.refs r.next).refs, next := (walk s r.refs r.next).next } := by
    refine ⟨rfl, rfl, htaken.documents, fun s' hs' => ?_, htaken.targets, htaken.references, fun key hkey => hknown key ?_⟩
    · rcases htaken.schemas s' hs' with hs' | hs'
      · rcases Table.mem_values_set hs' with rfl | hs'
        · exact Or.inl rfl
        · exact Or.inr (Or.inl hs')
      · exact Or.inr (Or.inr hs')
    · rw [isSome_lookup?] at hkey ⊢
      exact hkey.imp_left Table.has_set_of_has
  refine Yields.bind (Yields.of_modify ?_)
  dsimp only
  split
  · exact Yields.of_throw hentered
  · exact Yields.of_pure hentered

end Action

variable {α β : Type} {inv : Registry → Prop}

/-! ### Properties that actions uphold -/

/-- An action that upholds `inv`, whether it ends well or fails; `P` is what else it ends with. -/
def Upholds (inv : Registry → Prop) (x : Action α) (P : α → Prop) : Prop :=
  ∀ r, inv r → Yields x r (fun a r' => inv r' ∧ P a) fun _ r' => inv r'

namespace Upholds

variable {x : Action α} {f : α → Action β} {P : α → Prop} {Q : β → Prop}

lemma bind (hx : Upholds inv x P) (hf : ∀ a, P a → Upholds inv (f a) Q) : Upholds inv (x >>= f) Q := by
  intro r hr
  refine Yields.bind ((hx r hr).mono ?_ fun _ _ h => h)
  rintro a r' ⟨hi, ha⟩
  exact hf a ha r' hi

lemma of_pure {a : α} (h : P a) : Upholds inv (pure a) P := fun _ hr => Yields.of_pure ⟨hr, h⟩

lemma of_throw {e : Failure} : Upholds inv (throw e : Action α) P := fun _ hr => Yields.of_throw hr

lemma of_get : Upholds inv get inv := fun _ hr => Yields.of_get ⟨hr, hr⟩

lemma of_lift {e : Except Failure α} (h : ∀ a, e = .ok a → P a) : Upholds inv (Action.lift e) P := by
  cases he : e with
  | ok a => exact of_pure (h a he)
  | error f => exact of_throw

lemma lift {e : Except Failure α} : Upholds inv (Action.lift e) fun _ => True := of_lift fun _ _ => trivial

lemma mapM {g : α → Action β} (h : ∀ a, Upholds inv (g a) fun _ => True) (xs : List α) :
    Upholds inv (xs.mapM g) fun _ => True := by
  induction xs with
  | nil => exact of_pure trivial
  | cons x xs ih =>
    rw [List.mapM_cons]
    exact (h x).bind fun _ _ => ih.bind fun _ _ => of_pure trivial

end Upholds

/-- **A property that runs uphold**: `inv` speaks of registries, and `fit` is what it asks of a schema that goes in. -/
structure Upheld (inv : Registry → Prop) (fit : Schema Node → Prop) : Prop where
  stored : ∀ {r s}, inv r → s ∈ r.schemas.values ∨ s ∈ r.documents.values → fit s
  aside : ∀ {r : Registry} (next : ℕ) (asked : List String) (notices : List Notice), inv r →
    inv { r with next, asked, notices }
  register : ∀ {s}, fit s → Upholds inv (Action.register s) fun _ => True
  note : ∀ {r : Registry} (key : String), inv r → inv { r with references := r.references.set key none }
  target : ∀ {r : Registry} {s} (key : String), fit s → inv r → inv { r with references := r.references.set key (some s) }
  document : ∀ {r : Registry} {s} (key : String), fit s → inv r → inv { r with documents := r.documents.set key s }
  opened : ∀ {content url s}, Document.toSchema content url = .ok s → fit s
  extracted : ∀ {refs s pointer explicit part}, fit s → Schema.extract refs s pointer explicit = .ok part → fit part
  replaced : ∀ {s : Schema Node} (address : Address) (content : Node) (ancestors : List Address), fit s →
    fit { s with address, content, ancestors, operation := false }

namespace Upheld

variable {fit : Schema Node → Prop} (h : Upheld inv fit)
include h

lemma tell (n : Notice) : Upholds inv (Action.tell n) fun _ => True :=
  fun r hr => Yields.of_modify ⟨h.aside r.next r.asked _ hr, trivial⟩

lemma freshMark : Upholds inv Action.freshMark fun _ => True :=
  fun r hr => Yields.of_modifyGet ⟨h.aside _ r.asked r.notices hr, trivial⟩

lemma adopt (document : Node) : Upholds inv (Action.adopt document) fun _ => True :=
  fun r hr => Yields.of_modifyGet ⟨h.aside _ r.asked r.notices hr, trivial⟩

lemma addReference (a : Address) : Upholds inv (Action.addReference a) fun _ => True := by
  intro r hr
  refine Yields.of_modify ?_
  split_ifs
  · exact ⟨hr, trivial⟩
  · exact ⟨h.note a.text hr, trivial⟩

/-! ### Operations -/

omit h in
lemma resolved (node : Node) : Upholds inv (Operation.resolved node) fun _ => True := by
  refine Upholds.of_get.bind fun r _ => ?_
  split
  · exact Upholds.lift.bind fun _ _ => Upholds.of_pure trivial
  · exact Upholds.of_pure trivial

lemma registerPart {s : Schema Node} (hs : fit s) (name : String) (content : Node) :
    Upholds inv (Operation.registerPart s name content) fun _ => True :=
  (h.register (h.replaced _ _ _ hs)).bind fun _ _ => (h.addReference _).bind fun _ _ => Upholds.of_pure trivial

omit h in
lemma parameters (operation : Node) : Upholds inv (Operation.parameters operation) fun _ => True := by
  unfold Operation.parameters
  split
  · exact (Upholds.mapM resolved _).bind fun _ _ => Upholds.of_pure trivial
  · split_ifs
    · exact Upholds.of_throw
    · exact Upholds.of_pure trivial
  · split_ifs
    · exact Upholds.of_pure trivial
    · exact Upholds.of_throw
  · exact Upholds.of_pure trivial

omit h in
lemma parameterSchema (hmark : Upholds inv Action.freshMark fun _ => True) (parameter : Node) :
    Upholds inv (Operation.parameterSchema parameter) fun _ => True := by
  have hlast : ∀ (c : Prop) [Decidable c] (a b : Node), Upholds inv (if c then pure a else pure b) fun _ => True := by
    intro c _ a b
    split
    · exact Upholds.of_pure trivial
    · exact Upholds.of_pure trivial
  unfold Operation.parameterSchema
  cases parameter.fields.get? "description" with
  | none =>
    cases parameter.fields.get? "schema" with
    | none =>
      exact (Upholds.of_pure trivial).bind fun _ (_ : True) => hmark.bind fun _ _ => Upholds.of_get.bind fun _ _ =>
        Upholds.of_pure trivial
    | some node =>
      exact (resolved node).bind fun _ _ => hmark.bind fun _ _ => Upholds.of_get.bind fun _ _ =>
        Upholds.of_pure trivial
  | some description =>
    cases parameter.fields.get? "schema" with
    | none =>
      exact (Upholds.of_pure trivial).bind fun _ (_ : True) => hmark.bind fun _ _ => Upholds.of_get.bind fun _ _ =>
        hlast _ _ _
    | some node =>
      exact (resolved node).bind fun _ _ => hmark.bind fun _ _ => Upholds.of_get.bind fun _ _ => hlast _ _ _

omit h in
lemma collect (hmark : Upholds inv Action.freshMark fun _ => True) (group : List Node) (properties : Table String Node)
    (required : List String) : Upholds inv (Operation.collect group properties required) fun _ => True := by
  induction group generalizing properties required with
  | nil => exact Upholds.of_pure trivial
  | cons p group ih =>
    rw [Operation.collect]
    split
    · exact ih _ _
    · exact (parameterSchema hmark p).bind fun _ _ => ih _ _

lemma addGroups {s : Schema Node} (hs : fit s) (all : List Node) (locations : List String) (draft : Operation.Draft) :
    Upholds inv (Operation.addGroups s all locations draft) fun _ => True := by
  induction locations generalizing draft with
  | nil => exact Upholds.of_pure trivial
  | cons location locations ih =>
    rw [Operation.addGroups]
    dsimp only
    split
    · exact ih draft
    · exact (collect h.freshMark _ _ _).bind fun _ _ => h.freshMark.bind fun _ _ => h.freshMark.bind fun _ _ =>
        h.freshMark.bind fun _ _ => (h.registerPart hs _ _).bind fun _ _ => ih _

lemma addBodies {s : Schema Node} (hs : fit s) (isOnly isRequired : Bool) (request : Operation.Request)
    (media : List (String × Node)) : Upholds inv (Operation.addBodies s isOnly isRequired request media) fun _ => True := by
  induction media with
  | nil => exact Upholds.of_pure trivial
  | cons m media ih =>
    obtain ⟨mediaType, body⟩ := m
    rw [Operation.addBodies]
    refine (h.registerPart hs _ _).bind fun bodySchema _ => ?_
    dsimp only
    split
    · exact (Upholds.of_pure trivial).bind fun _ (_ : True) => (h.adopt _).bind fun _ _ =>
        (h.registerPart hs _ _).bind fun _ _ => ih.bind fun _ _ => Upholds.of_pure trivial
    · have hrequired : Upholds inv (Operation.hasRequired body) fun _ => True :=
        (resolved body).bind fun _ _ => Upholds.of_pure trivial
      exact hrequired.bind fun _ _ => (h.adopt _).bind fun _ _ => (h.registerPart hs _ _).bind fun _ _ =>
        ih.bind fun _ _ => Upholds.of_pure trivial

lemma requestBodies {s : Schema Node} (hs : fit s) (request : Operation.Request) :
    Upholds inv (Operation.requestBodies s request) fun _ => True := by
  unfold Operation.requestBodies
  split
  · exact Upholds.of_pure trivial
  · refine (resolved _).bind fun body _ => ?_
    split
    · exact h.addBodies hs _ _ _ _
    · exact Upholds.of_pure trivial

lemma addResponse {s : Schema Node} (hs : fit s) (status : String) (isOnly : Bool) (media : List (String × Node)) :
    Upholds inv (Operation.addResponse s status isOnly media) fun _ => True := by
  induction media with
  | nil => exact Upholds.of_pure trivial
  | cons m media ih => exact (h.registerPart hs _ _).bind fun _ _ => ih.bind fun _ _ => Upholds.of_pure trivial

lemma addResponses {s : Schema Node} (hs : fit s) (responses : List (String × Node)) :
    Upholds inv (Operation.addResponses s responses) fun _ => True := by
  induction responses with
  | nil => exact Upholds.of_pure trivial
  | cons e responses ih =>
    refine (resolved _).bind fun response _ => ?_
    dsimp only
    split
    · exact (h.addResponse hs _ _ _).bind fun _ _ => ih.bind fun _ _ => Upholds.of_pure trivial
    · exact (Upholds.of_pure trivial).bind fun _ (_ : True) => ih.bind fun _ _ => Upholds.of_pure trivial

lemma synthesize {s : Schema Node} (hs : fit s) : Upholds inv (Operation.synthesize s) fun _ => True := by
  unfold Operation.synthesize
  split
  · exact Upholds.of_pure trivial
  · refine (h.tell _).bind fun _ _ => (parameters _).bind fun all _ => (h.addGroups hs _ _ _).bind fun draft _ =>
      (h.requestBodies hs _).bind fun bodies _ => ?_
    dsimp only
    split
    · exact (h.adopt _).bind fun _ _ => (h.registerPart hs _ _).bind fun _ _ => (Upholds.of_pure trivial).bind
        fun _ (_ : True) => (h.addResponses hs _).bind fun _ _ => Upholds.of_pure trivial
    · exact (Upholds.of_pure trivial).bind fun _ (_ : True) => (h.addResponses hs _).bind fun _ _ =>
        Upholds.of_pure trivial

/-! ### Resolution -/

lemma openDocument (document : Node) (url : Option String) : Upholds inv (Action.openDocument document url) fit :=
  (h.adopt _).bind fun _ _ => (Upholds.of_lift fun _ => h.opened).bind fun _ hs => (h.tell _).bind fun _ _ =>
    Upholds.of_pure hs

lemma receive (url : String) (result : Except String Node) : Upholds inv (Resolution.receive url result) fun _ => True := by
  cases result with
  | error words => exact Upholds.of_pure trivial
  | ok document =>
    refine (h.tell _).bind fun _ _ => (h.openDocument _ _).bind fun schema hs => (h.register hs).bind fun _ _ => ?_
    refine Upholds.bind (P := fun _ => True) (fun r hr => ?_) fun _ _ => Upholds.of_pure trivial
    exact Yields.of_modify ⟨h.document _ hs hr, trivial⟩

lemma receiveAll (results : List (String × Except String Node)) :
    Upholds inv (Resolution.receiveAll results) fun _ => True := by
  induction results with
  | nil => exact Upholds.of_pure trivial
  | cons e results ih => exact (h.receive _ _).bind fun _ _ => ih.bind fun _ _ => Upholds.of_pure trivial

lemma fetchAll (fetcher : Fetcher) (pending : List String) :
    Upholds inv (Resolution.fetchAll fetcher pending) fun _ => True := by
  refine Upholds.of_get.bind fun r _ => ?_
  cases fetcher with
  | none => exact Upholds.of_pure trivial
  | some fetch =>
    refine Upholds.bind (P := fun _ => True) (fun r' hr' => ?_) fun _ _ => h.receiveAll _
    exact Yields.of_modify ⟨h.aside r'.next _ _ hr', trivial⟩

/-- The target of an address fits. -/
lemma target_fits (key : Address) : Upholds inv (Resolution.target key) fit := by
  refine Upholds.of_get.bind fun r hr => ?_
  split
  · next s hs => exact Upholds.of_pure (h.stored hr (Or.inl (Table.mem_values_of_get? hs)))
  · have hholder : Upholds inv (Action.lift (Resolution.holder r key)) fun e => fit e.1 := by
      refine Upholds.of_lift fun e he => ?_
      exact h.stored hr (Resolution.mem_of_holder he).symm
    refine hholder.bind fun e he => ?_
    dsimp only
    split_ifs
    · exact Upholds.of_pure he
    · refine (Upholds.of_lift fun part hpart => h.extracted he hpart).bind fun s hs => ?_
      exact (h.register hs).bind fun _ _ => Upholds.of_pure hs

lemma targets (keys : List String) : Upholds inv (Resolution.targets keys) fun _ => True := by
  induction keys with
  | nil => exact Upholds.of_pure trivial
  | cons key keys ih =>
    refine Upholds.bind (P := fun _ => True) (fun r hr => ?_) fun _ _ => ih.bind fun _ _ => Upholds.of_pure trivial
    -- failures that resolution tolerates end well here, with the registry in which the target failed
    have htarget := h.target_fits (Address.ofText key) r hr
    refine Yields.of_outcome (fun a r' hrun => ?_) fun f r' hrun => ?_
    · split at hrun
      · next s r₁ hs =>
        cases hrun
        obtain ⟨hi, hfit⟩ := htarget.good_of_ok hs
        exact ⟨h.target key hfit hi, trivial⟩
      · next f r₁ hf =>
        split_ifs at hrun
        cases hrun
        exact ⟨htarget.bad_of_error hf, trivial⟩
    · split at hrun
      · cases hrun
      · next f' r₁ hf =>
        split at hrun
        · cases hrun
        · cases hrun
          exact htarget.bad_of_error hf

lemma rounds (fetcher : Fetcher) (limit round done : ℕ) :
    Upholds inv (Resolution.rounds fetcher limit round done) fun _ => True := by
  induction limit generalizing round done with
  | zero =>
    refine Upholds.of_get.bind fun r _ => ?_
    split
    · exact Upholds.of_pure trivial
    · exact Upholds.of_throw
  | succ limit ih =>
    refine Upholds.of_get.bind fun r _ => ?_
    dsimp only
    split
    · exact Upholds.of_pure trivial
    · refine (h.tell _).bind fun _ _ => (h.fetchAll _ _).bind fun _ _ => (h.targets _).bind fun _ _ => ?_
      split
      · exact ih _ _
      · exact Upholds.of_throw

lemma resolve (fetcher : Fetcher) : Upholds inv (Resolution.resolve fetcher) fun _ => True :=
  Upholds.of_get.bind fun _ _ => h.rounds _ _ _ _

lemma addDocument (document : Node) (url : Option String) :
    Upholds inv (Generator.addDocument document url) fun _ => True :=
  (h.openDocument _ _).bind fun _ hs => (h.register hs).bind fun _ _ => Upholds.of_pure trivial

end Upheld

/-! ### Calls -/

namespace Call

/-- The registry that a call leaves, whether it ends well or fails. -/
def left (c : Call) (r : Registry) : Registry :=
  match c.action r with
  | .ok _ r' | .error _ r' => r'

/-- The registry that several calls leave. -/
def leftAll : List Call → Registry → Registry
  | [], r => r
  | c :: calls, r => leftAll calls (c.left r)

/-- Whether the schema that a call is given fits. -/
def Fits (fit : Schema Node → Prop) : Call → Prop
  | register s | synthesize s => fit s
  | _ => True

end Call

namespace Upheld

variable {fit : Schema Node → Prop} (h : Upheld inv fit)
include h

lemma left {c : Call} (hc : c.Fits fit) {r : Registry} (hr : inv r) : inv (c.left r) := by
  have haction : Upholds inv c.action fun _ => True := by
    cases c with
    | document content url => exact (h.addDocument content url).bind fun _ _ => Upholds.of_pure trivial
    | register s => exact h.register hc
    | addReference a => exact h.addReference a
    | synthesize s => exact (h.synthesize hc).bind fun _ _ => Upholds.of_pure trivial
    | resolve fetcher => exact (h.resolve fetcher).bind fun _ _ => Upholds.of_pure trivial
  have hyields := haction r hr
  unfold Call.left
  split
  · next hrun => exact (hyields.good_of_ok hrun).1
  · next hrun => exact hyields.bad_of_error hrun

/-- **What each registration upholds, every run upholds.** -/
theorem leftAll {calls : List Call} (hc : ∀ c ∈ calls, c.Fits fit) {r : Registry} (hr : inv r) :
    inv (Call.leftAll calls r) := by
  induction calls generalizing r with
  | nil => exact hr
  | cons c calls ih =>
    exact ih (fun c' hc' => hc c' (List.mem_cons_of_mem _ hc')) (h.left (hc c List.mem_cons_self) hr)

end Upheld

end Typings
