import Typings.Generator
import Typings.Proofs.Walk

/-!
Closed registries. A registry is closed when every reference that a registered schema reaches has a current text, and
every current text is an address in its one form that is noted as referenced (`Registry.Closed`). Every action on the
registry keeps it closed unless a registration is cut short (`Keeps`), so a registry whose references all have their
targets leaves no reference without one. Main statements:

* `Action.register_yields`: registering a schema covers it;
* `Quiet.synthesize`, `Quiet.resolve`: operations and rounds of resolution keep a registry closed;
* `resolve_closes`: after any run of actions, a resolution that succeeds leaves a registry in which every reference is
  an address in its one form that has a schema, and in which there is nothing left to resolve.
-/

namespace Typings

open Discovery (Covers Extends Found)

/-- **A closed registry.** -/
structure Registry.Closed (r : Registry) : Prop where
  /-- Current texts are addresses in their one form, noted as referenced. -/
  texts : ∀ m text, r.refs.get? m = some text → Address.IsCanonical text ∧ r.references.has text = true
  /-- Registered schemas are covered. -/
  schemas : ∀ s ∈ r.schemas.values, Covers r.refs s
  /-- Targets of references are covered. -/
  targets : ∀ s, some s ∈ r.references.values → Covers r.refs s
  /-- Fetched documents are covered. -/
  documents : ∀ s ∈ r.documents.values, Covers r.refs s

lemma Registry.closed_empty : Registry.empty.Closed :=
  ⟨nofun, fun _ h => absurd h List.not_mem_nil, fun _ h => absurd h List.not_mem_nil,
    fun _ h => absurd h List.not_mem_nil⟩

namespace Action

/-! ### Registering -/

lemma addSchema_yields (s : Schema Node) (r : Registry) :
    Yields (addSchema s) r (fun _ r' => ∃ notices, r' = { r with schemas := r.schemas.set s.address.text s, notices })
      (fun _ _ => False) := by
  unfold addSchema
  refine Yields.bind (Yields.of_get ?_)
  dsimp only
  split
  · split
    · exact Yields.bind (Yields.of_modify (Yields.of_modify ⟨_, rfl⟩))
    · exact Yields.bind (Yields.of_pure (Yields.of_modify ⟨_, rfl⟩))
  · exact Yields.bind (Yields.of_pure (Yields.of_modify ⟨_, rfl⟩))

/-- The registry with an address noted as referenced. -/
lemma addReference_yields (a : Address) (r : Registry) :
    Yields (addReference a) r
      (fun _ r' => ∃ references, r' = { r with references } ∧ references.has a.text = true ∧
        (∀ key, r.references.has key = true → references.has key = true) ∧
        ∀ s, some s ∈ references.values → some s ∈ r.references.values)
      (fun _ _ => False) := by
  refine Yields.of_modify ?_
  split_ifs with h
  · exact ⟨r.references, rfl, h, fun _ hk => hk, fun _ hs => hs⟩
  · refine ⟨_, rfl, Table.has_set.2 (Or.inl rfl), fun _ hk => Table.has_set_of_has hk, fun s hs => ?_⟩
    rcases Table.mem_values_set hs with hs | hs
    · cases hs
    · exact hs

/-- What taking up reports does to the registry. -/
structure TakenUp (found : List Found) (r r' : Registry) : Prop where
  /-- Texts stay. -/
  refs : r'.refs = r.refs
  /-- Documents stay. -/
  documents : r'.documents = r.documents
  /-- Schemas are old ones or reported ones. -/
  schemas : ∀ s ∈ r'.schemas.values, s ∈ r.schemas.values ∨ ∃ refs, Found.schema s refs ∈ found
  /-- References stay. -/
  references : ∀ key, r.references.has key = true → r'.references.has key = true
  /-- Reported references are noted. -/
  reported : ∀ a, Found.reference a ∈ found → r'.references.has a.text = true
  /-- There are no new targets. -/
  targets : ∀ s, some s ∈ r'.references.values → some s ∈ r.references.values

lemma takeUp_yields (found : List Found) (r : Registry) :
    Yields (takeUp found) r (fun _ r' => TakenUp found r r') (fun _ _ => False) := by
  induction found generalizing r with
  | nil =>
    exact Yields.of_pure ⟨rfl, rfl, fun _ h => Or.inl h, fun _ h => h, fun _ h => absurd h List.not_mem_nil, fun _ h => h⟩
  | cons f found ih =>
    cases f with
    | schema s refs =>
      refine Yields.bind ((addSchema_yields s r).mono ?_ fun _ _ h => h)
      rintro ⟨⟩ _ ⟨notices, rfl⟩
      refine (ih _).mono ?_ fun _ _ h => h
      rintro ⟨⟩ r' h
      refine ⟨h.refs, h.documents, fun s' hs' => ?_, h.references, fun a ha => ?_, h.targets⟩
      · rcases h.schemas s' hs' with hs' | ⟨refs', hs'⟩
        · rcases Table.mem_values_set hs' with rfl | hs'
          · exact Or.inr ⟨refs, List.mem_cons_self⟩
          · exact Or.inl hs'
        · exact Or.inr ⟨refs', List.mem_cons_of_mem _ hs'⟩
      · exact h.reported a (by simpa using ha)
    | reference a =>
      refine Yields.bind ((addReference_yields a r).mono ?_ fun _ _ h => h)
      rintro ⟨⟩ _ ⟨references, rfl, hself, hold, htargets⟩
      refine (ih _).mono ?_ fun _ _ h => h
      rintro ⟨⟩ r' h
      refine ⟨h.refs, h.documents, fun s' hs' => ?_, fun key hk => h.references key (hold key hk), fun b hb => ?_,
        fun s hs => htargets s (h.targets s hs)⟩
      · exact (h.schemas s' hs').imp_right fun ⟨refs', hs'⟩ => ⟨refs', List.mem_cons_of_mem _ hs'⟩
      · rcases List.mem_cons.1 hb with hb | hb
        · cases hb
          exact h.references _ hself
        · exact h.reported b hb

/-- **Registering a schema covers it** and keeps a registry closed. -/
theorem register_yields (s : Schema Node) (r : Registry) :
    Yields (register s) r
      (fun _ r' => r.Closed → r'.Closed ∧ Extends r.refs r'.refs ∧ Covers r'.refs s)
      (fun f _ => f = .badUrl ∨ f = .badKind) := by
  unfold register
  refine Yields.bind (Yields.of_modify (Yields.bind ((addSchema_yields s _).mono ?_ fun _ _ h => h.elim)))
  rintro ⟨⟩ _ ⟨notices, rfl⟩
  refine Yields.bind (Yields.of_get (Yields.bind ?_))
  refine (takeUp_yields _ _).mono ?_ fun _ _ h => h.elim
  rintro ⟨⟩ r₂ htaken
  refine Yields.bind (Yields.of_modify ?_)
  obtain ⟨hwalked, hfailure⟩ := Discovery.walk_covers s r.refs r.next
  dsimp only at htaken ⊢
  split
  · next f hf => exact Yields.of_throw (hfailure f hf)
  · next hf =>
    refine Yields.of_pure fun hclosed => ?_
    have hw := hwalked hf
    refine ⟨⟨fun m text hm => ?_, fun s' hs' => ?_, fun s' hs' => ?_, fun s' hs' => ?_⟩, hw.refs, hw.root⟩
    · rcases hw.texts m text hm with hm | ⟨hc, hr⟩
      · exact (hclosed.texts m text hm).imp_right (htaken.references text)
      · exact ⟨hc, htaken.reported _ hr⟩
    · rcases htaken.schemas s' hs' with hs' | ⟨refs, hs'⟩
      · rcases Table.mem_values_set hs' with rfl | hs'
        · exact hw.root
        · exact (hclosed.schemas s' hs').mono hw.refs
      · exact hw.schemas s' refs hs'
    · exact (hclosed.targets s' (htaken.targets s' hs')).mono hw.refs
    · refine (hclosed.documents s' ?_).mono hw.refs
      exact htaken.documents ▸ hs'

end Action

/-! ### Actions that keep a registry closed -/

/-- Failures that may have cut a registration short. -/
def Failure.cutsShort : Failure → Bool
  | .badUrl | .badKind => true
  | _ => false

variable {α β : Type}

/-- **An action keeps a registry closed** unless a registration in it is cut short; `P` is what else it ends with. -/
def Keeps (x : Action α) (r : Registry) (P : α → Registry → Prop) : Prop :=
  r.Closed → Yields x r (fun a r' => r'.Closed ∧ Extends r.refs r'.refs ∧ P a r')
    (fun f r' => f.cutsShort = true ∨ r'.Closed ∧ Extends r.refs r'.refs)

namespace Keeps

variable {x : Action α} {f : α → Action β} {r : Registry} {P : α → Registry → Prop} {Q : β → Registry → Prop}

lemma mono {P' : α → Registry → Prop} (h : Keeps x r P) (hp : ∀ a r', P a r' → P' a r') : Keeps x r P' := by
  intro hr
  exact (h hr).mono (fun a r' ⟨hc, he, ha⟩ => ⟨hc, he, hp a r' ha⟩) fun _ _ h => h

/-- What an action keeps, what follows it keeps too. -/
lemma bind (hx : Keeps x r P) (hf : ∀ a r', P a r' → Keeps (f a) r' Q) : Keeps (x >>= f) r Q := by
  intro hr
  refine Yields.bind ((hx hr).mono ?_ fun _ _ h => h)
  rintro a r' ⟨hc, he, ha⟩
  refine (hf a r' ha hc).mono ?_ ?_
  · rintro b r'' ⟨hc', he', hb⟩
    exact ⟨hc', he.trans he', hb⟩
  · intro f r'' h
    exact h.imp_right fun ⟨hc', he'⟩ => ⟨hc', he.trans he'⟩

lemma of_pure {a : α} (h : P a r) : Keeps (pure a) r P := fun hr => Yields.of_pure ⟨hr, Extends.refl _, h⟩

lemma of_throw {e : Failure} : Keeps (throw e : Action α) r P :=
  fun hr => Yields.of_throw (Or.inr ⟨hr, Extends.refl _⟩)

lemma of_get {P : Registry → Registry → Prop} (h : P r r) : Keeps get r P :=
  fun hr => Yields.of_get ⟨hr, Extends.refl _, h⟩

lemma of_lift {e : Except Failure α} (h : ∀ a, e = .ok a → P a r) : Keeps (Action.lift e) r P := by
  cases he : e with
  | ok a => exact of_pure (h a he)
  | error f => exact of_throw

/-- A change of what closedness does not speak of. -/
lemma of_modifyGet {g : Registry → α × Registry} (hrefs : (g r).2.refs = r.refs) (hs : (g r).2.schemas = r.schemas)
    (hf : (g r).2.references = r.references) (hd : (g r).2.documents = r.documents) :
    Keeps (modifyGet g) r fun _ _ => True := by
  intro hr
  refine Yields.of_modifyGet ⟨⟨?_, ?_, ?_, ?_⟩, hrefs ▸ Extends.refl _, trivial⟩
  · rw [hrefs, hf]
    exact hr.texts
  · rw [hrefs, hs]
    exact hr.schemas
  · rw [hrefs, hf]
    exact hr.targets
  · rw [hrefs, hd]
    exact hr.documents

lemma tell (n : Notice) : Keeps (Action.tell n) r fun _ _ => True := of_modifyGet rfl rfl rfl rfl

lemma freshMark : Keeps Action.freshMark r fun _ _ => True := of_modifyGet rfl rfl rfl rfl

lemma adopt (document : Node) : Keeps (Action.adopt document) r fun _ _ => True := of_modifyGet rfl rfl rfl rfl

lemma register (s : Schema Node) : Keeps (Action.register s) r fun _ r' => Covers r'.refs s := by
  intro hr
  refine (Action.register_yields s r).mono (fun _ r' h => h hr) ?_
  rintro f r' (rfl | rfl)
  · exact Or.inl rfl
  · exact Or.inl rfl

lemma addReference (a : Address) : Keeps (Action.addReference a) r fun _ _ => True := by
  intro hr
  refine (Action.addReference_yields a r).mono ?_ fun _ _ h => h.elim
  rintro ⟨⟩ _ ⟨references, rfl, -, hold, htargets⟩
  exact ⟨⟨fun m text hm => (hr.texts m text hm).imp_right (hold text), hr.schemas,
    fun s hs => hr.targets s (htargets s hs), hr.documents⟩, Extends.refl _, trivial⟩

end Keeps

/-- An action that keeps every registry closed. -/
def Quiet (x : Action α) : Prop := ∀ r, Keeps x r fun _ _ => True

namespace Quiet

variable {x : Action α} {f : α → Action β}

lemma bind (hx : Quiet x) (hf : ∀ a, Quiet (f a)) : Quiet (x >>= f) := fun r => (hx r).bind fun a r' _ => hf a r'

lemma of_pure {a : α} : Quiet (pure a) := fun _ => Keeps.of_pure trivial

lemma of_throw {e : Failure} : Quiet (throw e : Action α) := fun _ => Keeps.of_throw

lemma of_get : Quiet get := fun _ => Keeps.of_get trivial

lemma lift {e : Except Failure α} : Quiet (Action.lift e) := fun _ => Keeps.of_lift fun _ _ => trivial

lemma tell (n : Notice) : Quiet (Action.tell n) := fun _ => Keeps.tell n

lemma freshMark : Quiet Action.freshMark := fun _ => Keeps.freshMark

lemma adopt (document : Node) : Quiet (Action.adopt document) := fun _ => Keeps.adopt document

lemma register (s : Schema Node) : Quiet (Action.register s) :=
  fun _ => (Keeps.register s).mono fun _ _ _ => trivial

lemma addReference (a : Address) : Quiet (Action.addReference a) := fun _ => Keeps.addReference a

lemma mapM {g : α → Action β} (h : ∀ a, Quiet (g a)) (xs : List α) : Quiet (xs.mapM g) := by
  induction xs with
  | nil => exact of_pure
  | cons x xs ih =>
    rw [List.mapM_cons]
    exact (h x).bind fun _ => ih.bind fun _ => of_pure

/-! ### Operations -/

lemma resolved (node : Node) : Quiet (Operation.resolved node) := by
  refine of_get.bind fun r => ?_
  split
  · exact lift.bind fun _ => of_pure
  · exact of_pure

lemma registerPart (operation : Schema Node) (name : String) (content : Node) :
    Quiet (Operation.registerPart operation name content) :=
  (register _).bind fun _ => (addReference _).bind fun _ => of_pure

lemma parameters (operation : Node) : Quiet (Operation.parameters operation) := by
  unfold Operation.parameters
  split
  · exact (mapM resolved _).bind fun _ => of_pure
  · split_ifs
    · exact of_throw
    · exact of_pure
  · split_ifs
    · exact of_pure
    · exact of_throw
  · exact of_pure

lemma parameterSchema (parameter : Node) : Quiet (Operation.parameterSchema parameter) := by
  unfold Operation.parameterSchema
  cases parameter.fields.get? "description" with
  | none =>
    cases parameter.fields.get? "schema" with
    | none => exact of_pure.bind fun _ => freshMark.bind fun _ => of_get.bind fun _ => of_pure
    | some node => exact (resolved node).bind fun _ => freshMark.bind fun _ => of_get.bind fun _ => of_pure
  | some description =>
    have hlast : ∀ (c : Prop) [Decidable c] (a b : Node), Quiet (if c then pure a else pure b) := by
      intro c _ a b
      split
      · exact of_pure
      · exact of_pure
    cases parameter.fields.get? "schema" with
    | none => exact of_pure.bind fun _ => freshMark.bind fun _ => of_get.bind fun _ => hlast _ _ _
    | some node => exact (resolved node).bind fun _ => freshMark.bind fun _ => of_get.bind fun _ => hlast _ _ _

lemma collect (group : List Node) (properties : Table String Node) (required : List String) :
    Quiet (Operation.collect group properties required) := by
  induction group generalizing properties required with
  | nil => exact of_pure
  | cons p group ih =>
    rw [Operation.collect]
    split
    · exact ih _ _
    · exact (parameterSchema p).bind fun _ => ih _ _

lemma addGroups (operation : Schema Node) (all : List Node) (locations : List String) (draft : Operation.Draft) :
    Quiet (Operation.addGroups operation all locations draft) := by
  induction locations generalizing draft with
  | nil => exact of_pure
  | cons location locations ih =>
    rw [Operation.addGroups]
    dsimp only
    split
    · exact ih draft
    · exact (collect _ _ _).bind fun _ => freshMark.bind fun _ => freshMark.bind fun _ => freshMark.bind fun _ =>
        (registerPart _ _ _).bind fun _ => ih _

lemma hasRequired (body : Node) : Quiet (Operation.hasRequired body) := (resolved body).bind fun _ => of_pure

lemma addBodies (operation : Schema Node) (isOnly isRequired : Bool) (request : Operation.Request)
    (media : List (String × Node)) : Quiet (Operation.addBodies operation isOnly isRequired request media) := by
  induction media with
  | nil => exact of_pure
  | cons m media ih =>
    obtain ⟨mediaType, body⟩ := m
    rw [Operation.addBodies]
    refine (registerPart _ _ _).bind fun bodySchema => ?_
    dsimp only
    split
    · exact of_pure.bind fun _ => (adopt _).bind fun _ => (registerPart _ _ _).bind fun _ => ih.bind fun _ => of_pure
    · exact (hasRequired body).bind fun _ => (adopt _).bind fun _ => (registerPart _ _ _).bind fun _ =>
        ih.bind fun _ => of_pure

lemma requestBodies (operation : Schema Node) (request : Operation.Request) :
    Quiet (Operation.requestBodies operation request) := by
  unfold Operation.requestBodies
  split
  · exact of_pure
  · refine (resolved _).bind fun body => ?_
    split
    · exact addBodies _ _ _ _ _
    · exact of_pure

lemma addResponse (operation : Schema Node) (status : String) (isOnly : Bool) (media : List (String × Node)) :
    Quiet (Operation.addResponse operation status isOnly media) := by
  induction media with
  | nil => exact of_pure
  | cons m media ih =>
    obtain ⟨mediaType, schema⟩ := m
    exact (registerPart _ _ _).bind fun _ => ih.bind fun _ => of_pure

lemma addResponses (operation : Schema Node) (responses : List (String × Node)) :
    Quiet (Operation.addResponses operation responses) := by
  induction responses with
  | nil => exact of_pure
  | cons e responses ih =>
    obtain ⟨status, node⟩ := e
    refine (resolved node).bind fun response => ?_
    dsimp only
    split
    · exact (addResponse _ _ _ _).bind fun _ => ih.bind fun _ => of_pure
    · exact of_pure.bind fun _ => ih.bind fun _ => of_pure

/-- Replacing an operation by its schemas. -/
lemma synthesize (s : Schema Node) : Quiet (Operation.synthesize s) := by
  unfold Operation.synthesize
  split
  · exact of_pure
  · refine (tell _).bind fun _ => (parameters _).bind fun all => (addGroups _ _ _ _).bind fun draft =>
      (requestBodies _ _).bind fun bodies => ?_
    dsimp only
    split
    · exact (adopt _).bind fun _ => (registerPart _ _ _).bind fun _ => of_pure.bind fun _ =>
        (addResponses _ _).bind fun _ => of_pure
    · exact of_pure.bind fun _ => (addResponses _ _).bind fun _ => of_pure

/-! ### Resolution -/

lemma openDocument (document : Node) (url : Option String) : Quiet (Action.openDocument document url) :=
  (adopt _).bind fun _ => lift.bind fun _ => (tell _).bind fun _ => of_pure

lemma receive (url : String) (result : Except String Node) : Quiet (Resolution.receive url result) := by
  cases result with
  | error words => exact of_pure
  | ok document =>
    refine (tell _).bind fun _ => (openDocument _ _).bind fun schema r => ?_
    refine (Keeps.register schema).bind fun _ r' hcovers => Keeps.bind (P := fun _ _ => True) ?_ fun _ _ _ => of_pure _
    intro hr
    refine Yields.of_modify ⟨⟨hr.texts, hr.schemas, hr.targets, fun s hs => ?_⟩, Extends.refl _, trivial⟩
    rcases Table.mem_values_set hs with rfl | hs
    · exact hcovers
    · exact hr.documents s hs

lemma receiveAll (results : List (String × Except String Node)) : Quiet (Resolution.receiveAll results) := by
  induction results with
  | nil => exact of_pure
  | cons e results ih =>
    obtain ⟨url, result⟩ := e
    exact (receive url result).bind fun _ => ih.bind fun _ => of_pure

lemma fetchAll (fetcher : Fetcher) (pending : List String) : Quiet (Resolution.fetchAll fetcher pending) := by
  refine of_get.bind fun r => ?_
  cases fetcher with
  | none => exact of_pure
  | some fetch =>
    refine Quiet.bind (fun r' => ?_) fun _ => receiveAll _
    exact Keeps.of_modifyGet rfl rfl rfl rfl

end Quiet

namespace Resolution

/-- A holder is a fetched document or a registered schema. -/
lemma mem_of_holder {r : Registry} {key : Address} {parent : Schema Node} {pointer : String}
    (h : holder r key = .ok (parent, pointer)) : parent ∈ r.documents.values ∨ parent ∈ r.schemas.values := by
  unfold holder at h
  split at h
  · next document hd =>
    cases h
    exact Or.inl (Table.mem_values_of_get? hd)
  · split at h
    · cases h
    · split at h
      · next s hs =>
        cases h
        exact Or.inr (Table.mem_values_of_get? hs)
      · cases h

end Resolution

namespace Keeps

variable {r : Registry}

/-- The target of an address is covered. -/
lemma target (key : Address) : Keeps (Resolution.target key) r fun s r' => Covers r'.refs s := by
  intro hr
  refine Yields.bind (Yields.of_get ?_)
  split
  · next s hs => exact Yields.of_pure ⟨hr, Extends.refl _, hr.schemas s (Table.mem_values_of_get? hs)⟩
  · have hlift : Keeps (Action.lift (Resolution.holder r key)) r fun e r' => Covers r'.refs e.1 := by
      refine of_lift fun e he => ?_
      rcases Resolution.mem_of_holder he with h | h
      · exact hr.documents _ h
      · exact hr.schemas _ h
    refine hlift.bind (fun e r' hcovers => ?_) hr
    dsimp only
    split_ifs
    · exact of_pure hcovers
    · exact (Quiet.lift r').bind fun s r'' _ => (register s).bind fun _ _ h => of_pure h

/-- Targets found are targets of references. -/
lemma setTarget {key : String} {s : Schema Node} (hr : r.Closed) (hs : Covers r.refs s) :
    Registry.Closed { r with references := r.references.set key (some s) } := by
  refine ⟨fun m text hm => ?_, hr.schemas, fun s' hs' => ?_, hr.documents⟩
  · exact (hr.texts m text hm).imp_right Table.has_set_of_has
  · rcases Table.mem_values_set hs' with h | h
    · cases h
      exact hs
    · exact hr.targets s' h

end Keeps

namespace Quiet

lemma targets (keys : List String) : Quiet (Resolution.targets keys) := by
  induction keys with
  | nil => exact of_pure
  | cons key keys ih =>
    refine Quiet.bind (fun r hr => ?_) fun _ => ih.bind fun _ => of_pure
    have htarget := Keeps.target (r := r) (Address.ofText key) hr
    refine Yields.of_outcome (fun a r' h => ?_) fun f r' h => ?_
    · split at h
      · next s r₁ hs =>
        cases h
        obtain ⟨hc, he, hcovers⟩ := htarget.good_of_ok hs
        exact ⟨Keeps.setTarget hc hcovers, he, trivial⟩
      · next f r₁ hf =>
        split_ifs at h with hschema
        cases h
        rcases htarget.bad_of_error hf with hcut | ⟨hc, he⟩
        · cases f <;> simp_all [Failure.cutsShort, Failure.isSchemaFailure]
        · exact ⟨hc, he, trivial⟩
    · split at h
      · cases h
      · next f' r₁ hf =>
        split at h
        · cases h
        · cases h
          exact htarget.bad_of_error hf

/-- A round keeps the registry closed, and so do all rounds. -/
lemma rounds (fetcher : Fetcher) (limit round done : ℕ) : Quiet (Resolution.rounds fetcher limit round done) := by
  induction limit generalizing round done with
  | zero =>
    refine of_get.bind fun r => ?_
    split
    · exact of_pure
    · exact of_throw
  | succ limit ih =>
    refine of_get.bind fun r => ?_
    dsimp only
    split
    · exact of_pure
    · refine (tell _).bind fun _ => (fetchAll _ _).bind fun unfetched => (targets _).bind fun left => ?_
      split
      · exact ih _ _
      · exact of_throw

lemma resolve (fetcher : Fetcher) : Quiet (Resolution.resolve fetcher) := of_get.bind fun _ => rounds _ _ _ _

/-! ### Stages -/

lemma addDocument (document : Node) (url : Option String) : Quiet (Generator.addDocument document url) :=
  (openDocument _ _).bind fun _ => (register _).bind fun _ => of_pure

lemma synthesizeAll (schemas : List (Schema Node)) : Quiet (Generator.synthesizeAll schemas) := by
  induction schemas with
  | nil => exact of_pure
  | cons s schemas ih =>
    rw [Generator.synthesizeAll]
    split
    · exact Quiet.bind (Quiet.bind (synthesize s) fun _ => of_pure) fun _ => ih.bind fun _ => of_pure
    · exact of_pure.bind fun _ => ih.bind fun _ => of_pure

lemma runStage (options : Generator.Options) (stage : Generator.Stage) : Quiet (Generator.runStage options stage) := by
  unfold Generator.runStage
  dsimp only
  split
  · exact of_get.bind fun _ => (synthesizeAll _).bind fun _ => (tell _).bind fun _ => (resolve _).bind fun _ =>
      (tell _).bind fun _ => of_pure
  · exact (resolve _).bind fun _ => (tell _).bind fun _ => of_pure

end Quiet

/-! ### After resolution -/

namespace Resolution

/-- The rounds end when no address is left without a target. -/
lemma rounds_pending (fetcher : Fetcher) (limit round done : ℕ) (r : Registry) :
    Yields (rounds fetcher limit round done) r (fun _ r' => r'.pending = []) (fun _ _ => True) := by
  induction limit generalizing round done r with
  | zero =>
    refine Yields.bind (Yields.of_get ?_)
    split
    · next h => exact Yields.of_pure h
    · exact Yields.of_throw trivial
  | succ limit ih =>
    refine Yields.bind (Yields.of_get ?_)
    dsimp only
    split
    · next h => exact Yields.of_pure h
    · refine Yields.bind (Yields.anything.mono (fun _ _ _ => ?_) fun _ _ h => h)
      refine Yields.bind (Yields.anything.mono (fun _ _ _ => ?_) fun _ _ h => h)
      refine Yields.bind (Yields.anything.mono (fun _ _ _ => ?_) fun _ _ h => h)
      split
      · exact ih _ _ _
      · exact Yields.of_throw trivial

lemma pending_of_resolve {fetcher : Fetcher} {r r' : Registry} {n : ℕ} (h : resolve fetcher r = .ok n r') :
    r'.pending = [] := by
  have hy : Yields (resolve fetcher) r (fun _ r' => r'.pending = []) (fun _ _ => True) :=
    Yields.bind (Yields.of_get (rounds_pending fetcher (roundLimit r) 0 0 r))
  exact hy.good_of_ok h

/-- Where nothing is left to resolve, resolution does nothing. -/
lemma rounds_of_pending_nil {r : Registry} (h : r.pending = []) (fetcher : Fetcher) (limit round resolved : ℕ) :
    Yields (rounds fetcher limit round resolved) r (fun n r' => n = resolved ∧ r' = r) fun _ _ => False := by
  cases limit with
  | zero =>
    refine Yields.bind (Yields.of_get ?_)
    rw [if_pos h]
    exact Yields.of_pure ⟨rfl, rfl⟩
  | succ limit =>
    refine Yields.bind (Yields.of_get ?_)
    rw [if_pos h]
    exact Yields.of_pure ⟨rfl, rfl⟩

lemma resolve_of_pending_nil {r : Registry} (h : r.pending = []) (fetcher : Fetcher) : resolve fetcher r = .ok 0 r := by
  have hy : Yields (resolve fetcher) r (fun n r' => n = 0 ∧ r' = r) fun _ _ => False :=
    Yields.bind (Yields.of_get (rounds_of_pending_nil h fetcher (roundLimit r) 0 0))
  obtain ⟨n, r', hrun, rfl, rfl⟩ := hy.exists_ok
  exact hrun

end Resolution

namespace Registry

/-- A noted address has its target where nothing is left to resolve. -/
lemma target_of_pending_nil {r : Registry} {key : String} {o : Option (Schema Node)} (hp : r.pending = [])
    (ho : r.references.get? key = some o) : ∃ s, o = some s := by
  cases o with
  | none =>
    have hmem : key ∈ r.pending := by
      refine List.mem_map.2 ⟨(key, none), ?_, rfl⟩
      exact List.mem_filter.2 ⟨Table.mem_of_get? ho, rfl⟩
    rw [hp] at hmem
    cases hmem
  | some s => exact ⟨s, rfl⟩

lemma lookup?_of_pending_nil {r : Registry} {key : String} (hp : r.pending = []) (h : r.references.has key = true) :
    ∃ s, r.lookup? key = some s := by
  obtain ⟨o, ho⟩ := Table.has_iff.1 h
  obtain ⟨s, rfl⟩ := target_of_pending_nil hp ho
  unfold lookup?
  cases r.schemas.get? key with
  | some s' => exact ⟨s', rfl⟩
  | none => exact ⟨s, by simp [ho]⟩

/-- What a text means is registered or a target. -/
lemma mem_of_dereference {r : Registry} {text : String} {s : Schema Node} (h : r.dereference text = .ok s) :
    s ∈ r.schemas.values ∨ some s ∈ r.references.values := by
  rw [dereference] at h
  split at h
  · next t ht =>
    cases h
    rcases Option.or_eq_some_iff.1 ht with hs | ⟨-, hs⟩
    · exact Or.inl (Table.mem_values_of_get? hs)
    · cases hg : r.references.get? (Address.ofText text).text with
      | none =>
        rw [hg] at hs
        cases hs
      | some t =>
        rw [hg] at hs
        cases hs
        exact Or.inr (Table.mem_values_of_get? hg)
  · cases h

/-- **References in a closed registry have their schemas** where nothing is left to resolve. -/
theorem Closed.dereference {r : Registry} (hr : r.Closed) (hp : r.pending = []) {s : Schema Node} (hs : Covers r.refs s)
    {node : Node} (hreach : Discovery.Reaches s.dialect s.openapi s.content node) {text : String}
    (ht : node.reference? r.refs = some text) :
    Address.IsCanonical text ∧ ∃ target, r.dereference text = .ok target := by
  have hmark := hs node hreach (Node.isReference_of_reference? ht)
  obtain ⟨hc, hn⟩ := hr.texts _ _ (Node.get?_mark_of_reference? ht hmark)
  obtain ⟨target, htarget⟩ := lookup?_of_pending_nil hp hn
  refine ⟨hc, target, ?_⟩
  simp only [Registry.dereference, show (Address.ofText text).text = text from hc, htarget]

end Registry

/-! ### Runs -/

/-- What may be asked of a registry. -/
inductive Call where
  /-- Take a document in and register it. -/
  | document (content : Node) (url : Option String)
  /-- Register a schema. -/
  | register (s : Schema Node)
  /-- Note a referenced address. -/
  | addReference (a : Address)
  /-- Replace an operation by its schemas. -/
  | synthesize (s : Schema Node)
  /-- Resolve all references. -/
  | resolve (fetcher : Fetcher)

namespace Call

/-- What a call does. -/
def action : Call → Action Unit
  | document content url => do let _ ← Generator.addDocument content url
  | register s => Action.register s
  | addReference a => Action.addReference a
  | synthesize s => do let _ ← Operation.synthesize s
  | resolve fetcher => do let _ ← Resolution.resolve fetcher

/-- Whether a call stops at the parameters of an operation, before anything is registered. -/
def stopsEarly : Call → Registry → Bool
  | synthesize s, r => match (do Action.tell (.synthesizing s.address.text); Operation.parameters s.content) r with
    | .error _ _ => true
    | .ok _ _ => false
  | _, _ => false

/-- The registry after a call, nothing if a registration in it was cut short. The other failures leave what was done. -/
def after (c : Call) (r : Registry) : Option Registry :=
  match c.action r with
  | .ok _ r' => some r'
  | .error f r' => if f.cutsShort && !c.stopsEarly r then none else some r'

/-- The registry after several calls. -/
def afterAll : List Call → Registry → Option Registry
  | [], r => some r
  | c :: calls, r => (c.after r).bind (afterAll calls)

lemma afterAll_singleton (c : Call) (r : Registry) : afterAll [c] r = c.after r := by
  cases h : c.after r <;> simp [afterAll, h]

lemma quiet_action (c : Call) : Quiet c.action := by
  cases c with
  | document content url => exact (Quiet.addDocument content url).bind fun _ => Quiet.of_pure
  | register s => exact Quiet.register s
  | addReference a => exact Quiet.addReference a
  | synthesize s => exact (Quiet.synthesize s).bind fun _ => Quiet.of_pure
  | resolve fetcher => exact (Quiet.resolve fetcher).bind fun _ => Quiet.of_pure

/-- Following references changes nothing. -/
lemma resolved_same (node : Node) (r : Registry) :
    Yields (Operation.resolved node) r (fun _ r' => r' = r) (fun _ r' => r' = r) := by
  refine Yields.bind (Yields.of_get ?_)
  split
  · next text _ =>
    cases h : r.dereference text with
    | ok s => exact Yields.bind (Yields.of_pure (Yields.of_pure rfl))
    | error f => exact Yields.bind (Yields.of_throw rfl)
  · exact Yields.of_pure rfl

lemma mapM_same {g : α → Action β} (h : ∀ a r, Yields (g a) r (fun _ r' => r' = r) (fun _ r' => r' = r)) (xs : List α)
    (r : Registry) : Yields (xs.mapM g) r (fun _ r' => r' = r) (fun _ r' => r' = r) := by
  induction xs with
  | nil => exact Yields.of_pure rfl
  | cons x xs ih =>
    rw [List.mapM_cons]
    refine Yields.bind ((h x r).mono ?_ fun _ _ h => h)
    rintro _ _ rfl
    refine Yields.bind (ih.mono ?_ fun _ _ h => h)
    rintro _ _ rfl
    exact Yields.of_pure rfl

lemma parameters_same (operation : Node) (r : Registry) :
    Yields (Operation.parameters operation) r (fun _ r' => r' = r) (fun _ r' => r' = r) := by
  unfold Operation.parameters
  split
  · refine Yields.bind ((mapM_same resolved_same _ r).mono ?_ fun _ _ h => h)
    rintro _ _ rfl
    exact Yields.of_pure rfl
  · split_ifs
    · exact Yields.of_throw rfl
    · exact Yields.of_pure rfl
  · split_ifs
    · exact Yields.of_pure rfl
    · exact Yields.of_throw rfl
  · exact Yields.of_pure rfl

/-- A call that stops early leaves the registry closed. -/
lemma synthesize_stopsEarly {s : Schema Node} {r : Registry} (h : (synthesize s).stopsEarly r = true) (hr : r.Closed) :
    Yields (Operation.synthesize s) r (fun _ _ => True) (fun _ r' => r'.Closed) := by
  unfold Operation.synthesize
  split
  · exact Yields.of_pure trivial
  · refine Yields.bind (Yields.of_modify (Yields.bind (Yields.of_outcome (fun all r' hok => ?_) fun f r' herr => ?_)))
    · have hrun : (do Action.tell (.synthesizing s.address.text); Operation.parameters s.content) r = .ok all r' := hok
      rw [stopsEarly, hrun] at h
      cases h
    · obtain rfl := (parameters_same _ _).bad_of_error herr
      exact ⟨hr.texts, hr.schemas, hr.targets, hr.documents⟩

/-- **One call keeps the registry closed.** -/
theorem closed_after {c : Call} {r r' : Registry} (hr : r.Closed) (h : c.after r = some r') : r'.Closed := by
  have hquiet := quiet_action c r hr
  unfold after at h
  split at h
  · next hok =>
    cases h
    exact (hquiet.good_of_ok hok).1
  · next f r₁ herr =>
    split_ifs at h with hcut
    cases h
    rcases hquiet.bad_of_error herr with hf | ⟨hc, -⟩
    · -- only an operation whose parameters are no list fails this way without a registration
      have hstops : c.stopsEarly r = true := by simpa [hf] using hcut
      cases c with
      | synthesize s =>
        have hy : Yields (synthesize s).action r (fun _ _ => True) (fun _ r' => r'.Closed) :=
          Yields.bind ((synthesize_stopsEarly hstops hr).mono (fun _ _ _ => Yields.of_pure trivial) fun _ _ h => h)
        exact hy.bad_of_error herr
      | _ => cases hstops
    · exact hc

/-- All calls keep it closed. -/
theorem closed_afterAll {calls : List Call} {r r' : Registry} (hr : r.Closed) (h : afterAll calls r = some r') :
    r'.Closed := by
  induction calls generalizing r with
  | nil =>
    cases h
    exact hr
  | cons c calls ih =>
    obtain ⟨r₁, h₁, h₂⟩ := Option.bind_eq_some_iff.1 h
    exact ih (closed_after hr h₁) h₂

end Call

/-- **Resolution closes the registry.** After any calls in which no registration was cut short, a resolution that succeeds
leaves no address without a target; every reference that a registered schema reaches is an address in its one form that
has a schema; and there is nothing left for a further resolution to do. -/
theorem resolve_closes (calls : List Call) (fetcher : Fetcher) (r r' : Registry) (n : ℕ)
    (hrun : Call.afterAll calls .empty = some r) (hresolve : Resolution.resolve fetcher r = .ok n r') :
    r'.pending = [] ∧
    (∀ s ∈ r'.schemas.values, ∀ node, Discovery.Reaches s.dialect s.openapi s.content node →
      ∀ text, node.reference? r'.refs = some text →
        Address.IsCanonical text ∧ ∃ target, r'.dereference text = .ok target) ∧
    ∀ fetcher', Resolution.resolve fetcher' r' = .ok 0 r' := by
  have hr := Call.closed_afterAll Registry.closed_empty hrun
  have hr' : r'.Closed := ((Quiet.resolve fetcher r hr).good_of_ok hresolve).1
  have hp := Resolution.pending_of_resolve hresolve
  refine ⟨hp, fun s hs node hreach text ht => ?_, Resolution.resolve_of_pending_nil hp⟩
  exact hr'.dereference hp (hr'.schemas s hs) hreach ht

/-- A document of two schemas that refer to each other. -/
def mutualReferences : Json :=
  .obj [("id", .str "http://h/d"), ("definitions", .obj [("a", .obj [("$ref", .str "#/definitions/b")]),
    ("b", .obj [("items", .obj [("$ref", .str "#/definitions/a")])])])]

theorem resolve_closes_mutualReferences :
    ∃ r r' n, Call.afterAll [.document (Node.ofJson mutualReferences) none] .empty = some r ∧
      Resolution.resolve none r = .ok n r' ∧ n = 2 ∧ r'.pending = [] ∧
      ∀ fetcher, Resolution.resolve fetcher r' = .ok 0 r' := by
  have hrun : (((Call.document (Node.ofJson mutualReferences) none).after .empty).any fun r =>
      ends (Resolution.resolve none) r fun n _ => n == 2) = true := by decide +kernel
  obtain ⟨r, hr, hrun⟩ := (Option.any_eq_true _ _).1 hrun
  obtain ⟨n, r', hresolve, hn⟩ := exists_of_ends hrun
  have hcalls := (Call.afterAll_singleton _ _).trans hr
  obtain ⟨hp, -, hagain⟩ := resolve_closes _ none r r' n hcalls hresolve
  exact ⟨r, r', n, hcalls, hresolve, beq_iff_eq.1 hn, hp, hagain⟩

end Typings
