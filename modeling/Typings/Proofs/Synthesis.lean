import Typings.Proofs.Pipeline
import Typings.Proofs.Stability

/-!
References that the synthesis of operations follows. Parameters, request bodies and responses may be references, and so may
the schemas that these show. A walk reaches all of them as long as it knows that it is in OpenAPI version 3; a reference
may lead out of it, into a document where the schemas that a parameter or a body shows are not looked for. Main statement:
`synthesize_follows`, where no such document shows a reference, every reference that the first stage has noted is there for
the synthesis.
-/

namespace Typings

open Discovery (Covers CoversNode Extends Found Reaches Visit)

/-! ### Operations belong to OpenAPI version 3 -/

/-- A schema that is an operation only if it belongs to a document of OpenAPI version 3. -/
def Schema.OfVersion3 (s : Schema Node) : Prop := s.operation = true → s.openapi = some .v3

namespace Discovery

/-- What is reported from inside a schema belongs to its document. -/
def Belongs (s : Schema Node) (found : List Found) : Prop :=
  ∀ s' refs, Found.schema s' refs ∈ found → s'.openapi = s.openapi ∧ (s'.operation = true → s.openapi = some .v3)

lemma enter_belongs {s : Schema Node} {visit : Visit} (hv : visit.operation = true → s.openapi = some .v3) {t : Trail}
    (ht : Belongs s t.found) :
    Yields (enter s visit) t (fun _ t' => Belongs s t'.found) fun _ t' => Belongs s t'.found := by
  unfold enter
  split
  · exact Yields.of_pure ht
  · next id _ =>
    refine Yields.bind ?_
    cases Address.within id visit.scope with
    | error f => exact Yields.of_throw ht
    | ok address =>
      refine Yields.of_pure (Yields.bind (Yields.of_get (Yields.bind (Yields.of_modify (Yields.of_pure ?_)))))
      intro s' refs h
      rcases List.mem_cons.1 h with h | h
      · obtain ⟨rfl, -⟩ := Found.schema.inj h
        exact ⟨rfl, hv⟩
      · exact ht s' refs h

lemma canonize_belongs {s : Schema Node} (node : Node) (scope : List String) {t : Trail} (ht : Belongs s t.found) :
    Yields (canonize node scope) t (fun _ t' => Belongs s t'.found) fun _ t' => Belongs s t'.found := by
  refine Yields.bind (Yields.of_get ?_)
  split
  · exact Yields.of_pure ht
  · next text _ =>
    refine Yields.bind ?_
    cases Address.within text scope with
    | error f => exact Yields.of_throw ht
    | ok address =>
      refine Yields.of_pure (Yields.bind (Yields.of_modify (Yields.of_modify fun s' refs h => ht s' refs ?_)))
      simpa using h

theorem walk_belongs (s : Schema Node) (refs : Refs) (next : ℕ) : Belongs s (walk s refs next).found := by
  have hupheld : Upheld s fun t => Belongs s t.found :=
    ⟨fun _ _ hv ht => enter_belongs hv ht, fun node scope _ ht => canonize_belongs node scope ht⟩
  obtain ⟨t, ht, -, hfound⟩ := hupheld.walk (fun _ _ h => absurd h List.not_mem_nil) next
  intro s' refs' hs'
  rw [hfound] at hs'
  exact ht s' refs' (List.mem_reverse.1 hs')

end Discovery

/-- The schemas that an address can lead to. -/
def Registry.Offers (r : Registry) (s : Schema Node) : Prop := s ∈ r.schemas.values ∨ some s ∈ r.references.values

/-- The schemas that a registry stores. -/
def Registry.Stores (r : Registry) (s : Schema Node) : Prop :=
  s ∈ r.schemas.values ∨ some s ∈ r.references.values ∨ s ∈ r.documents.values

lemma upheld_ofVersion3 : Upheld (fun r => ∀ s, r.Stores s → s.OfVersion3) Schema.OfVersion3 where
  stored hr hs := hr _ (hs.imp_right Or.inr)
  aside _ _ _ hr := hr
  register {s} hs r hr := by
    have key : ∀ r', Action.Entered s r r' → ∀ s', r'.Stores s' → s'.OfVersion3 := by
      rintro r' h s' (hs' | hs' | hs')
      · -- a registered schema is the one that goes in, an old one, or one with an id inside the former
        rcases h.schemas s' hs' with rfl | hs' | ⟨refs, hs'⟩
        · exact hs
        · exact hr s' (Or.inl hs')
        · obtain ⟨hopenapi, hoperation⟩ := Discovery.walk_belongs s r.refs r.next s' refs hs'
          exact fun h => hopenapi.trans (hoperation h)
      · exact hr s' (Or.inr (Or.inl (h.targets s' hs')))
      · exact hr s' (Or.inr (Or.inr (h.documents ▸ hs')))
    exact (Action.register_entered s r).mono (fun _ r' h => ⟨key r' h, trivial⟩) fun _ r' h => key r' h
  note key hr s hs := by
    rcases hs with hs | hs | hs
    · exact hr s (Or.inl hs)
    · rcases Table.mem_values_set hs with hs | hs
      · cases hs
      · exact hr s (Or.inr (Or.inl hs))
    · exact hr s (Or.inr (Or.inr hs))
  target key hfit hr s hs := by
    rcases hs with hs | hs | hs
    · exact hr s (Or.inl hs)
    · rcases Table.mem_values_set hs with hs | hs
      · cases hs
        exact hfit
      · exact hr s (Or.inr (Or.inl hs))
    · exact hr s (Or.inr (Or.inr hs))
  document key hfit hr s hs := by
    rcases hs with hs | hs | hs
    · exact hr s (Or.inl hs)
    · exact hr s (Or.inr (Or.inl hs))
    · rcases Table.mem_values_set hs with rfl | hs
      · exact hfit
      · exact hr s (Or.inr (Or.inr hs))
  opened h := by
    unfold Document.toSchema at h
    obtain ⟨recognised, -, h⟩ := bind_eq_ok.1 h
    cases h
    exact nofun
  extracted hs h := by
    unfold Schema.extract at h
    obtain ⟨tokens, -, h⟩ := bind_eq_ok.1 h
    obtain ⟨content, -, h⟩ := bind_eq_ok.1 h
    obtain ⟨address, -, h⟩ := bind_eq_ok.1 h
    cases h
    exact fun hoperation => hs (Bool.and_eq_true_iff.1 hoperation).1
  replaced _ _ _ _ := nofun

/-! ### What the synthesis reads -/

namespace Discovery

variable {dialect : Dialect} {refs : Refs} {node : Node}

lemma mem_children (key : String) (place : Place) {value child : Node} (hp : (key, place) ∈ openapi3Places)
    (hv : node.fields.get? key = some value) (hc : child ∈ place.pick value) :
    child ∈ children dialect (some .v3) node := by
  refine List.mem_flatMap.2 ⟨(key, place), List.mem_append_right _ ?_, ?_⟩
  · rwa [if_pos rfl]
  · dsimp only
    rwa [hv]

lemma CoversNode.child {openapi : Option OpenApi} {child : Node} (h : CoversNode dialect openapi refs node)
    (hc : child ∈ children dialect openapi node) : CoversNode dialect openapi refs child :=
  fun inner hreach hi => h inner (Relation.ReflTransGen.head hc hreach) hi

lemma CoversNode.self {openapi : Option OpenApi} (h : CoversNode dialect openapi refs node) (hi : node.IsReference) :
    refs.has node.mark = true :=
  h node Relation.ReflTransGen.refl hi

end Discovery

namespace Operation

/-- The schemas that a parameter, a request body or a response shows. -/
def shown (node : Node) : List Node :=
  (node.fields.get? "schema").toList ++
    (Document.entries (node.fields.get? "content")).values.filterMap (·.fields.get? "schema")

/-- Every reference that a node shows has a current text. -/
def IsClear (refs : Refs) (node : Node) : Prop := ∀ inner ∈ shown node, inner.IsReference → refs.has inner.mark = true

lemma IsClear.mono {refs refs' : Refs} {node : Node} (h : IsClear refs node) (he : Extends refs refs') :
    IsClear refs' node :=
  fun inner hs hi => he _ (h inner hs hi)

/-- In OpenAPI version 3, walks look for what is shown. -/
lemma isClear_of_covers {dialect : Dialect} {refs : Refs} {node : Node} (h : CoversNode dialect (some .v3) refs node) :
    IsClear refs node := by
  intro inner hs hi
  rcases List.mem_append.1 hs with hs | hs
  · have hschema : inner ∈ Discovery.children dialect (some .v3) node :=
      Discovery.mem_children "schema" .one (by simp [Discovery.openapi3Places]) (Option.mem_toList.1 hs) List.mem_cons_self
    exact (h.child hschema).self hi
  · obtain ⟨media, hmedia, hinner⟩ := List.mem_filterMap.1 hs
    cases hc : node.fields.get? "content" with
    | none =>
      rw [hc] at hmedia
      cases hmedia
    | some content =>
      rw [hc] at hmedia
      have hpick : media ∈ Discovery.Place.manyOrNamed.pick content := by
        cases content with
        | atom m a => cases hmedia
        | arr m xs => cases hmedia
        | obj m fs => exact hmedia
      have hchild : media ∈ Discovery.children dialect (some .v3) node :=
        Discovery.mem_children "content" .manyOrNamed (by simp [Discovery.openapi3Places]) hc hpick
      have hschema : inner ∈ Discovery.children dialect (some .v3) media :=
        Discovery.mem_children "schema" .one (by simp [Discovery.openapi3Places]) hinner List.mem_cons_self
      exact ((h.child hchild).child hschema).self hi

/-! ### Following references -/

/-- **A registry that serves the synthesis**, begun in the registry `first`: it is closed, addresses that were noted at the
beginning lead to a schema, and no schema of another kind of document shows a reference. -/
structure Serves (first r : Registry) : Prop where
  closed : r.Closed
  refs : Extends first.refs r.refs
  known : ∀ key, first.references.has key = true → (r.lookup? key).isSome = true
  shows : ∀ s, r.Offers s → s.openapi = some .v3 ∨ ∀ node ∈ shown s.content, ¬ node.IsReference

/-- A failure about a reference that was not there at the beginning, but was noted since. -/
def IsLater (first : Registry) (f : Failure) (r : Registry) : Prop :=
  ∀ key, f = .reference key .unregistered → first.references.has key = false ∧ r.references.has key = true

variable {α β : Type} {first r : Registry}

/-- An action that goes on serving the synthesis; `P` is what else it ends with. -/
def Follows (first : Registry) (x : Action α) (r : Registry) (P : α → Registry → Prop) : Prop :=
  Serves first r → Yields x r (fun a r' => Serves first r' ∧ Extends r.refs r'.refs ∧ P a r') (IsLater first)

namespace Follows

variable {x : Action α} {f : α → Action β} {P : α → Registry → Prop} {Q : β → Registry → Prop}

lemma bind (hx : Follows first x r P) (hf : ∀ a r', Extends r.refs r'.refs → P a r' → Follows first (f a) r' Q) :
    Follows first (x >>= f) r Q := by
  intro hr
  refine Yields.bind ((hx hr).mono ?_ fun _ _ h => h)
  rintro a r' ⟨hr', he, ha⟩
  refine (hf a r' he ha hr').mono ?_ fun _ _ h => h
  rintro b r'' ⟨hr'', he', hb⟩
  exact ⟨hr'', he.trans he', hb⟩

lemma of_pure {a : α} (h : P a r) : Follows first (pure a) r P := fun hr => Yields.of_pure ⟨hr, Extends.refl _, h⟩

lemma of_throw {e : Failure} (h : ∀ key, e ≠ .reference key .unregistered) : Follows first (throw e : Action α) r P :=
  fun _ => Yields.of_throw fun key he => absurd he (h key)

lemma of_get {P : Registry → Registry → Prop} (h : P r r) : Follows first get r P :=
  fun hr => Yields.of_get ⟨hr, Extends.refl _, h⟩

/-- A change of what serving does not speak of. -/
lemma of_modifyGet {g : Registry → α × Registry} (hs : (g r).2.schemas = r.schemas) (hf : (g r).2.references = r.references)
    (hd : (g r).2.documents = r.documents) (hrefs : (g r).2.refs = r.refs) :
    Follows first (modifyGet g) r fun _ r' => r'.refs = r.refs := by
  intro hr
  obtain ⟨hc, -, -⟩ := (Keeps.of_modifyGet hrefs hs hf hd hr.closed).good_of_ok rfl
  refine Yields.of_modifyGet ⟨⟨hc, hrefs ▸ hr.refs, fun key hkey => ?_, fun s h => ?_⟩, hrefs ▸ Extends.refl _, hrefs⟩
  · rw [Registry.lookup?, hs, hf]
    exact hr.known key hkey
  · rw [Registry.Offers, hs, hf] at h
    exact hr.shows s h

lemma tell (n : Notice) : Follows first (Action.tell n) r fun _ r' => r'.refs = r.refs := of_modifyGet rfl rfl rfl rfl

lemma freshMark : Follows first Action.freshMark r fun _ r' => r'.refs = r.refs := of_modifyGet rfl rfl rfl rfl

lemma adopt (document : Node) : Follows first (Action.adopt document) r fun _ r' => r'.refs = r.refs :=
  of_modifyGet rfl rfl rfl rfl

lemma register {s : Schema Node} (hs : s.openapi = some .v3) : Follows first (Action.register s) r fun _ _ => True := by
  intro hr
  refine (((Action.register_yields s r).and (Action.register_entered s r))).mono ?_ ?_
  · rintro ⟨⟩ r' ⟨hclosed, hentered⟩
    obtain ⟨hc, he, -⟩ := hclosed hr.closed
    refine ⟨⟨hc, hr.refs.trans he, fun key hkey => hentered.known key (hr.known key hkey), fun s' h => ?_⟩, he, trivial⟩
    rcases h with h | h
    · rcases hentered.schemas s' h with rfl | h | ⟨refs, h⟩
      · exact Or.inl hs
      · exact hr.shows s' (Or.inl h)
      · exact Or.inl ((Discovery.walk_belongs s r.refs r.next s' refs h).1.trans hs)
    · exact hr.shows s' (Or.inr (hentered.targets s' h))
  · rintro f r' ⟨rfl | rfl, -⟩
    · rintro _ ⟨⟩
    · rintro _ ⟨⟩

lemma addReference (a : Address) : Follows first (Action.addReference a) r fun _ _ => True := by
  intro hr
  refine ((Keeps.addReference a hr.closed).and ((Action.addReference_known a r).and
    (Action.addReference_yields a r))).mono ?_ fun _ _ h => h.2.1.elim
  rintro ⟨⟩ r' ⟨⟨hc, he, -⟩, hknown, references, rfl, -, -, htargets⟩
  refine ⟨⟨hc, hr.refs.trans he, fun key hkey => hknown key (hr.known key hkey), fun s h => hr.shows s ?_⟩, he, trivial⟩
  exact h.imp_right (htargets s)

end Follows

lemma registerPart_follows {s : Schema Node} (hs : s.openapi = some .v3) (name : String) (content : Node) :
    Follows first (registerPart s name content) r fun _ _ => True :=
  Follows.bind (Follows.register hs) fun _ _ _ _ => (Follows.addReference _).bind fun _ _ _ _ => Follows.of_pure trivial

/-- **Following a reference.** What a node stands for is the node itself, or something that is clear. -/
lemma resolved_follows {node : Node} (hn : node.IsReference → r.refs.has node.mark = true) :
    Follows first (resolved node) r fun inner r' => r' = r ∧ (inner = node ∨ IsClear r.refs inner) := by
  intro hr
  refine Yields.bind (Yields.of_get ?_)
  cases htext : node.reference? r.refs with
  | none => exact Yields.of_pure ⟨hr, Extends.refl _, rfl, Or.inl rfl⟩
  | some text =>
    have hmark := hn (Node.isReference_of_reference? htext)
    obtain ⟨hcanonical, hnoted⟩ := hr.closed.texts _ _ (Node.get?_mark_of_reference? htext hmark)
    dsimp only
    cases hd : r.dereference text with
    | ok s =>
      -- the target was walked through in version 3, or it shows no references at all
      refine Yields.bind (Yields.of_pure (Yields.of_pure ⟨hr, Extends.refl _, rfl, Or.inr ?_⟩))
      rcases hr.shows s (Registry.mem_of_dereference hd) with hopenapi | hnone
      · have hcovers : CoversNode s.dialect s.openapi r.refs s.content := Registry.covers_of_dereference hr.closed hd
        rw [hopenapi] at hcovers
        exact isClear_of_covers hcovers
      · exact fun inner hs hi => absurd hi (hnone inner hs)
    | error f =>
      refine Yields.bind (Yields.of_throw fun key hf => ?_)
      have hkey : (Address.ofText text).text = text := hcanonical
      rw [Registry.dereference, hkey] at hd
      split at hd
      · cases hd
      · next hlookup =>
        cases hd
        cases hf
        -- current texts are noted, and what was noted at the beginning has a target
        refine ⟨?_, hnoted⟩
        by_contra hfirst
        have hknown := hr.known text (by simpa using hfirst)
        rw [hlookup] at hknown
        cases hknown

/-! ### Operations -/

lemma mapM_resolved_follows {dialect : Dialect} {nodes : List Node}
    (h : ∀ node ∈ nodes, CoversNode dialect (some .v3) r.refs node) :
    Follows first (nodes.mapM resolved) r fun all r' => r' = r ∧ ∀ inner ∈ all, IsClear r.refs inner := by
  induction nodes with
  | nil => exact Follows.of_pure ⟨rfl, fun _ hmem => absurd hmem List.not_mem_nil⟩
  | cons node nodes ih =>
    rw [List.mapM_cons]
    have hnode := h node List.mem_cons_self
    refine (resolved_follows hnode.self).bind ?_
    rintro inner _ - ⟨rfl, hinner⟩
    refine (ih fun n hn => h n (List.mem_cons_of_mem _ hn)).bind ?_
    rintro all _ - ⟨rfl, hall⟩
    refine Follows.of_pure ⟨rfl, fun n hn => ?_⟩
    rcases List.mem_cons.1 hn with rfl | hn
    · rcases hinner with rfl | hclear
      · exact isClear_of_covers hnode
      · exact hclear
    · exact hall n hn

lemma parameters_follows {dialect : Dialect} {content : Node} (h : CoversNode dialect (some .v3) r.refs content) :
    Follows first (parameters content) r fun all r' => ∀ p ∈ all, IsClear r'.refs p := by
  have hnone : ∀ p ∈ ([] : List Node), IsClear r.refs p := fun _ hmem => absurd hmem List.not_mem_nil
  unfold parameters
  split
  · next m xs hget =>
    have hcovers : ∀ node ∈ xs, CoversNode dialect (some .v3) r.refs node := fun node hnode =>
      h.child (Discovery.mem_children "parameters" .manyOrNamed (by simp [Discovery.openapi3Places]) hget hnode)
    refine (mapM_resolved_follows hcovers).bind ?_
    rintro all _ - ⟨rfl, hall⟩
    exact Follows.of_pure fun p hp => hall p (List.mem_filter.1 hp).1
  · split_ifs
    · exact Follows.of_throw (by rintro _ ⟨⟩)
    · exact Follows.of_pure hnone
  · split_ifs
    · exact Follows.of_pure hnone
    · exact Follows.of_throw (by rintro _ ⟨⟩)
  · exact Follows.of_pure hnone

lemma parameterSchema_follows {parameter : Node} (h : IsClear r.refs parameter) :
    Follows first (parameterSchema parameter) r fun _ _ => True := by
  have hlast : ∀ {r : Registry} (c : Prop) [Decidable c] (a b : Node),
      Follows first (if c then pure a else pure b) r fun _ _ => True := by
    intro r c _ a b
    split
    · exact Follows.of_pure trivial
    · exact Follows.of_pure trivial
  have hschema : ∀ node, parameter.fields.get? "schema" = some node → node.IsReference → r.refs.has node.mark = true :=
    fun node hnode hi => h node (List.mem_append_left _ (Option.mem_toList.2 hnode)) hi
  unfold parameterSchema
  cases parameter.fields.get? "description" with
  | none =>
    cases hs : parameter.fields.get? "schema" with
    | none =>
      exact (Follows.of_pure trivial).bind fun _ _ _ (_ : True) => Follows.freshMark.bind fun _ _ _ _ =>
        (Follows.of_get trivial).bind fun _ _ _ (_ : True) => Follows.of_pure trivial
    | some node =>
      exact (resolved_follows (hschema node hs)).bind fun _ _ _ _ => Follows.freshMark.bind fun _ _ _ _ =>
        (Follows.of_get trivial).bind fun _ _ _ (_ : True) => Follows.of_pure trivial
  | some description =>
    cases hs : parameter.fields.get? "schema" with
    | none =>
      exact (Follows.of_pure trivial).bind fun _ _ _ (_ : True) => Follows.freshMark.bind fun _ _ _ _ =>
        (Follows.of_get trivial).bind fun _ _ _ (_ : True) => hlast _ _ _
    | some node =>
      exact (resolved_follows (hschema node hs)).bind fun _ _ _ _ => Follows.freshMark.bind fun _ _ _ _ =>
        (Follows.of_get trivial).bind fun _ _ _ (_ : True) => hlast _ _ _

lemma collect_follows {group : List Node} (h : ∀ p ∈ group, IsClear r.refs p) (properties : Table String Node)
    (required : List String) : Follows first (collect group properties required) r fun _ _ => True := by
  induction group generalizing r properties required with
  | nil => exact Follows.of_pure trivial
  | cons p group ih =>
    have hgroup : ∀ q ∈ group, IsClear r.refs q := fun q hq => h q (List.mem_cons_of_mem _ hq)
    rw [collect]
    split
    · exact ih hgroup _ _
    · exact (parameterSchema_follows (h p List.mem_cons_self)).bind fun _ _ he _ =>
        ih (fun q hq => (hgroup q hq).mono he) _ _

lemma addGroups_follows {s : Schema Node} (hs : s.openapi = some .v3) {all : List Node} (h : ∀ p ∈ all, IsClear r.refs p)
    (locations : List String) (draft : Draft) : Follows first (addGroups s all locations draft) r fun _ _ => True := by
  induction locations generalizing r draft with
  | nil => exact Follows.of_pure trivial
  | cons location locations ih =>
    rw [addGroups]
    dsimp only
    split
    · exact ih h draft
    · refine (collect_follows (fun p hp => h p (List.mem_filter.1 hp).1) _ _).bind fun _ r₁ h₁ _ => ?_
      refine Follows.freshMark.bind fun _ r₂ h₂ _ => Follows.freshMark.bind fun _ r₃ h₃ _ =>
        Follows.freshMark.bind fun _ r₄ h₄ _ => (registerPart_follows hs _ _).bind fun _ r₅ h₅ _ => ?_
      exact ih (fun p hp => (h p hp).mono ((((h₁.trans h₂).trans h₃).trans h₄).trans h₅)) _

lemma addBodies_follows {s : Schema Node} (hs : s.openapi = some .v3) (isOnly isRequired : Bool) (request : Request)
    {media : List (String × Node)} (h : ∀ e ∈ media, e.2.IsReference → r.refs.has e.2.mark = true) :
    Follows first (addBodies s isOnly isRequired request media) r fun _ _ => True := by
  induction media generalizing r with
  | nil => exact Follows.of_pure trivial
  | cons m media ih =>
    obtain ⟨mediaType, body⟩ := m
    have hbody : body.IsReference → r.refs.has body.mark = true := h _ List.mem_cons_self
    have hrest : ∀ e ∈ media, e.2.IsReference → r.refs.has e.2.mark = true :=
      fun e he => h e (List.mem_cons_of_mem _ he)
    rw [addBodies]
    refine (registerPart_follows hs _ _).bind fun bodySchema r₁ h₁ _ => ?_
    dsimp only
    have hrequest : ∀ {r₂ : Registry} (variant : Request), Extends r.refs r₂.refs → Follows first (do
        let content ← Action.adopt (Node.ofJson variant.toJson)
        let requestSchema ← registerPart s (if isOnly then "request" else mediaSegment isOnly mediaType ++ "Request") content
        let others ← addBodies s isOnly isRequired request media
        return bodySchema :: requestSchema :: others) r₂ fun _ _ => True := by
      intro r₂ variant h₂
      refine (Follows.adopt _).bind fun _ r₃ h₃ _ => (registerPart_follows hs _ _).bind fun _ r₄ h₄ _ => ?_
      refine (ih fun e he hi => ?_).bind fun _ _ _ _ => Follows.of_pure trivial
      exact ((h₂.trans h₃).trans h₄) _ (hrest e he hi)
    split
    · exact (Follows.of_pure trivial).bind fun _ _ h₂ (_ : True) => hrequest _ (h₁.trans h₂)
    · have hrequired : Follows first (hasRequired body) r₁ fun _ _ => True :=
        (resolved_follows fun hi => h₁ _ (hbody hi)).bind fun _ _ _ _ => Follows.of_pure trivial
      exact hrequired.bind fun _ _ h₂ _ => hrequest _ (h₁.trans h₂)

/-- The schemas of the media types that a node has are among those it shows. -/
lemma shown_of_mediaSchemas {node : Node} {m : ℕ} {media : Table String Node}
    (h : node.fields.get? "content" = some (.obj m media)) {e : String × Node} (he : e ∈ mediaSchemas media) :
    e.2 ∈ shown node := by
  obtain ⟨entry, hentry, hschema⟩ := List.mem_filterMap.1 he
  split at hschema
  · next schema hget =>
    split_ifs at hschema
    cases hschema
    refine List.mem_append_right _ (List.mem_filterMap.2 ⟨entry.2, ?_, hget⟩)
    rw [h]
    exact List.mem_map_of_mem hentry
  · cases hschema

lemma requestBodies_follows {s : Schema Node} (hs : s.openapi = some .v3)
    (h : CoversNode s.dialect (some .v3) r.refs s.content) (request : Request) :
    Follows first (requestBodies s request) r fun _ _ => True := by
  unfold requestBodies
  split
  · exact Follows.of_pure trivial
  · next node hget =>
    have hnode : CoversNode s.dialect (some .v3) r.refs node :=
      h.child (Discovery.mem_children "requestBody" .one (by simp [Discovery.openapi3Places]) hget List.mem_cons_self)
    refine (resolved_follows hnode.self).bind ?_
    rintro body r' - ⟨rfl, hbody⟩
    have hclear : IsClear r'.refs body := by
      rcases hbody with rfl | hclear
      · exact isClear_of_covers hnode
      · exact hclear
    split
    · next hcontent => exact addBodies_follows hs _ _ _ fun e he hi => hclear _ (shown_of_mediaSchemas hcontent he) hi
    · exact Follows.of_pure trivial

lemma addResponse_follows {s : Schema Node} (hs : s.openapi = some .v3) (status : String) (isOnly : Bool)
    (media : List (String × Node)) : Follows first (addResponse s status isOnly media) r fun _ _ => True := by
  induction media generalizing r with
  | nil => exact Follows.of_pure trivial
  | cons m media ih =>
    exact (registerPart_follows hs _ _).bind fun _ _ _ _ => ih.bind fun _ _ _ _ => Follows.of_pure trivial

lemma addResponses_follows {s : Schema Node} (hs : s.openapi = some .v3) {responses : List (String × Node)}
    (h : ∀ e ∈ responses, e.2.IsReference → r.refs.has e.2.mark = true) :
    Follows first (addResponses s responses) r fun _ _ => True := by
  induction responses generalizing r with
  | nil => exact Follows.of_pure trivial
  | cons e responses ih =>
    have hrest : ∀ {r' : Registry}, Extends r.refs r'.refs →
        ∀ e' ∈ responses, e'.2.IsReference → r'.refs.has e'.2.mark = true :=
      fun he e' he' hi => he _ (h e' (List.mem_cons_of_mem _ he') hi)
    refine (resolved_follows (h e List.mem_cons_self)).bind ?_
    rintro response _ - ⟨rfl, -⟩
    dsimp only
    split
    · exact (addResponse_follows hs _ _ _).bind fun _ _ h₁ _ => (ih (hrest h₁)).bind fun _ _ _ _ => Follows.of_pure trivial
    · exact (Follows.of_pure trivial).bind fun _ _ h₁ (_ : True) => (ih (hrest h₁)).bind fun _ _ _ _ =>
        Follows.of_pure trivial

/-- Replacing an operation of OpenAPI version 3 that has been walked through. -/
lemma synthesize_serves {s : Schema Node} (hs : s.OfVersion3) (h : Covers r.refs s) :
    Follows first (synthesize s) r fun _ _ => True := by
  unfold synthesize
  split
  · exact Follows.of_pure trivial
  · next hoperation =>
    have hopenapi : s.openapi = some .v3 := hs (by simpa using hoperation)
    have hcovers : CoversNode s.dialect (some .v3) r.refs s.content := hopenapi ▸ h
    refine (Follows.tell _).bind fun _ r₁ h₁ _ => ?_
    refine (parameters_follows (hcovers.mono h₁)).bind fun all r₂ h₂ hall => ?_
    refine (addGroups_follows hopenapi hall _ _).bind fun draft r₃ h₃ _ => ?_
    refine (requestBodies_follows hopenapi (hcovers.mono ((h₁.trans h₂).trans h₃)) _).bind fun bodies r₄ h₄ _ => ?_
    have hresponses : ∀ e ∈ ((s.content.fields.get? "responses").map (·.fields)).getD [],
        CoversNode s.dialect (some .v3) r.refs e.2 := by
      intro e he
      cases hget : s.content.fields.get? "responses" with
      | none =>
        rw [hget] at he
        cases he
      | some node =>
        rw [hget] at he
        have hpick : e.2 ∈ Discovery.Place.manyOrNamed.pick node := by
          cases node with
          | atom m a => cases he
          | arr m xs => cases he
          | obj m fs => exact List.mem_map_of_mem he
        exact hcovers.child (Discovery.mem_children "responses" .manyOrNamed (by simp [Discovery.openapi3Places]) hget hpick)
    -- the responses come last, after the request of an operation without bodies or at once
    have hlast : ∀ {r₅ : Registry}, Extends r₄.refs r₅.refs → ∀ plain : List (Schema Node), Follows first (do
        let responses ← addResponses s (((s.content.fields.get? "responses").map (·.fields)).getD [])
        return draft.schemas ++ bodies ++ plain ++ responses) r₅ fun _ _ => True := by
      intro r₅ h₅ plain
      refine (addResponses_follows hopenapi fun e he hi => ?_).bind fun _ _ _ _ => Follows.of_pure trivial
      exact ((((h₁.trans h₂).trans h₃).trans h₄).trans h₅) _ ((hresponses e he).self hi)
    dsimp only
    split
    · refine (Follows.adopt _).bind fun _ r₅ h₅ _ => (registerPart_follows hopenapi _ _).bind fun _ r₆ h₆ _ => ?_
      exact (Follows.of_pure trivial).bind fun _ r₇ h₇ (_ : True) => hlast ((h₅.trans h₆).trans h₇) _
    · exact (Follows.of_pure trivial).bind fun _ _ h₅ (_ : True) => hlast h₅ _

lemma synthesizeAll_serves {schemas : List (Schema Node)} (h : ∀ s ∈ schemas, s.OfVersion3 ∧ Covers first.refs s) :
    Follows first (Generator.synthesizeAll schemas) r fun _ _ => True := by
  induction schemas generalizing r with
  | nil => exact Follows.of_pure trivial
  | cons s schemas ih =>
    have hrest : ∀ {r : Registry}, Follows first (Generator.synthesizeAll schemas) r fun _ _ => True :=
      ih fun s' hs' => h s' (List.mem_cons_of_mem _ hs')
    obtain ⟨hversion, hcovers⟩ := h s List.mem_cons_self
    intro hr
    have hs : Follows first (synthesize s) r fun _ _ => True := synthesize_serves hversion (hcovers.mono hr.refs)
    rw [Generator.synthesizeAll]
    split
    · exact ((hs.bind fun _ _ _ _ => Follows.of_pure trivial).bind fun _ _ _ (_ : True) =>
        hrest.bind fun _ _ _ _ => Follows.of_pure trivial) hr
    · exact ((Follows.of_pure trivial).bind fun _ _ _ (_ : True) =>
        hrest.bind fun _ _ _ _ => Follows.of_pure trivial) hr

end Operation

/-! ### After the first stage -/

namespace Generator

/-- Take documents in and run the first stage; the result is how many references were resolved. -/
def takeIn (options : Options) : List (Node × Option String) → Action Nat
  | [] => runStage options .documents
  | (document, url) :: rest => do
    let _ ← addDocument document url
    takeIn options rest

/-- Generating declarations begins with the first stage. -/
theorem generate_eq_takeIn (options : Options) (documents : List (Node × Option String)) :
    generate options documents = (do
      let _ ← takeIn options documents
      let _ ← runStage options .synthesized
      let tree ← namespaces
      Action.tell (.namespacesBuilt tree.countLeaves)
      emit options tree) := by
  induction documents with
  | nil => simp [generate, takeIn, finish]
  | cons d documents ih => simp [generate, takeIn, ih]

/-- What the first stage leaves. -/
structure TakenIn (r : Registry) : Prop where
  closed : r.Closed
  pending : r.pending = []
  versions : ∀ s, r.Stores s → s.OfVersion3

lemma takeIn_yields (options : Options) (documents : List (Node × Option String)) {r : Registry} (hc : r.Closed)
    (hv : ∀ s, r.Stores s → s.OfVersion3) :
    Yields (takeIn options documents) r (fun _ r' => TakenIn r') fun _ _ => True := by
  induction documents generalizing r with
  | nil =>
    have hstage : Upholds (fun r => ∀ s, r.Stores s → s.OfVersion3) (runStage options .documents) fun _ => True :=
      (upheld_ofVersion3.resolve options.fetcher).bind fun _ _ => (upheld_ofVersion3.tell _).bind fun _ _ =>
        Upholds.of_pure trivial
    refine Yields.of_outcome (fun n r' h => ⟨?_, ?_, ?_⟩) fun _ _ _ => trivial
    · exact ((Quiet.runStage options .documents r hc).good_of_ok h).1
    · exact (runStage_pending options .documents r).good_of_ok h
    · exact ((hstage r hv).good_of_ok h).1
  | cons d documents ih =>
    refine Yields.bind (Yields.of_outcome (fun s r' h => ?_) fun _ _ _ => trivial)
    exact ih ((Quiet.addDocument d.1 d.2 r hc).good_of_ok h).1 ((upheld_ofVersion3.addDocument d.1 d.2 r hv).good_of_ok h).1

/-- **What the first stage has noted is there for the synthesis.** Where no schema outside OpenAPI version 3 shows a
reference, an address without a schema at which the synthesis of registered operations stops was noted only by the
synthesis itself. -/
theorem synthesize_follows (options : Options) (documents : List (Node × Option String)) {n : ℕ} {r : Registry}
    (h : takeIn options documents .empty = .ok n r)
    (hshown : ∀ s, r.Offers s → s.openapi ≠ some .v3 → ∀ node ∈ Operation.shown s.content, ¬ node.IsReference)
    {operations : List (Schema Node)} (hop : ∀ s ∈ operations, s ∈ r.schemas.values) {key : String} {r' : Registry}
    (hf : synthesizeAll operations r = .error (.reference key .unregistered) r') :
    r.references.has key = false ∧ r'.references.has key = true := by
  have hempty : ∀ s, Registry.empty.Stores s → s.OfVersion3 := by
    rintro s (hs | hs | hs) <;> cases hs
  have htaken := (takeIn_yields options documents Registry.closed_empty hempty).good_of_ok h
  have hserves : Operation.Serves r r := by
    refine ⟨htaken.closed, Extends.refl _, fun key hkey => ?_, fun s hs => ?_⟩
    · obtain ⟨s, hs⟩ := Registry.lookup?_of_pending_nil htaken.pending hkey
      simp [hs]
    · by_cases hopenapi : s.openapi = some .v3
      · exact Or.inl hopenapi
      · exact Or.inr (hshown s hs hopenapi)
  have hoperations : ∀ s ∈ operations, s.OfVersion3 ∧ Covers r.refs s := fun s hs =>
    ⟨htaken.versions s (Or.inl (hop s hs)), htaken.closed.schemas s (hop s hs)⟩
  exact (Operation.synthesizeAll_serves hoperations hserves).bad_of_error hf key rfl

/-- Whether the synthesis of all registered operations stops at an address without a schema. -/
def missing (key : String) (r : Registry) : Bool :=
  match synthesizeAll r.schemas.values r with
  | .error (.reference text .unregistered) _ => text = key
  | _ => false

lemma exists_of_missing {key : String} {r : Registry} (h : missing key r = true) :
    ∃ r', synthesizeAll r.schemas.values r = .error (.reference key .unregistered) r' := by
  unfold missing at h
  split at h
  · next text r' hrun =>
    obtain rfl : text = key := by simpa using h
    exact ⟨r', hrun⟩
  · cases h

/-- A document whose one operation has a body of the given schema. -/
def putsBody (schema : Json) : Json :=
  .obj [("openapi", .str "3.0.0"), ("$id", .str "http://h/d"),
    ("paths", .obj [("/x", .obj [("put", .obj [("requestBody",
      .obj [("content", .obj [("text/plain", .obj [("schema", schema)])])])])])])]

/-- The body is registered as a part of the operation, which reads its reference once more. -/
theorem synthesize_follows_urn :
    ∃ n r r', takeIn ⟨none, "", .distinct⟩ [(Node.ofJson namedByUrn, none),
        (Node.ofJson (putsBody (.obj [("$ref", .str "urn:foo")])), none)] .empty = .ok n r ∧
      (∀ s, r.Offers s → s.openapi ≠ some .v3 → ∀ node ∈ Operation.shown s.content, ¬ node.IsReference) ∧
      synthesizeAll r.schemas.values r = .error (.reference "http://h/urn:foo#" .unregistered) r' ∧
      r.references.has "http://h/urn:foo#" = false ∧ r'.references.has "http://h/urn:foo#" = true := by
  have hrun : ends (takeIn ⟨none, "", .distinct⟩ [(Node.ofJson namedByUrn, none),
      (Node.ofJson (putsBody (.obj [("$ref", .str "urn:foo")])), none)]) .empty (fun _ r =>
        (r.schemas.values ++ r.references.values.filterMap id).all (fun s => s.openapi = some .v3 ||
          (Operation.shown s.content).isEmpty) && missing "http://h/urn:foo#" r) = true := by
    decide +kernel
  obtain ⟨n, r, htaken, hcheck⟩ := exists_of_ends hrun
  obtain ⟨hall, hmissing⟩ := Bool.and_eq_true_iff.1 hcheck
  obtain ⟨r', hf⟩ := exists_of_missing hmissing
  have hshown : ∀ s, r.Offers s → s.openapi ≠ some .v3 → ∀ node ∈ Operation.shown s.content, ¬ node.IsReference := by
    intro s hs hopenapi node hnode
    have hmem : s ∈ r.schemas.values ++ r.references.values.filterMap id := by
      rcases hs with hs | hs
      · exact List.mem_append_left _ hs
      · exact List.mem_append_right _ (List.mem_filterMap.2 ⟨some s, hs, rfl⟩)
    have hs := List.all_eq_true.1 hall s hmem
    simp only [hopenapi, decide_false, Bool.false_or, List.isEmpty_iff] at hs
    rw [hs] at hnode
    cases hnode
  exact ⟨n, r, r', htaken, hshown, hf, synthesize_follows _ _ htaken hshown (fun _ hs => hs) hf⟩

/-! ### A reference that no walk looks for -/

/-- A document without a version whose parameter shows a reference. -/
def plainParameters : Json :=
  .obj [("P", .obj [("name", .str "x"), ("in", .str "query"), ("schema", .obj [("$ref", .str "#/S")])]),
    ("S", .obj [("type", .str "integer")])]

/-- A document whose one operation takes its parameter from elsewhere. -/
def getsElsewhere : Json :=
  .obj [("openapi", .str "3.0.0"),
    ("paths", .obj [("/x", .obj [("get", .obj [("parameters", .arr [.obj [("$ref", .str "http://r/p#/P")]])])])])]

/-- **A reference that was never noted.** All references of the documents are resolved, and the synthesis still stops at
one: that of the schema of a parameter, in a document in which parameters are not looked for. -/
theorem synthesize_misses_plainParameters :
    ∃ n r r', takeIn ⟨some fun _ => ⟨[], .ok (Node.ofJson plainParameters)⟩, "", .distinct⟩
        [(Node.ofJson getsElsewhere, none)] .empty = .ok n r ∧ r.pending = [] ∧ r.references.has "#/S" = false ∧
      synthesizeAll r.schemas.values r = .error (.reference "#/S" .unregistered) r' := by
  have hrun : ends (takeIn ⟨some fun _ => ⟨[], .ok (Node.ofJson plainParameters)⟩, "", .distinct⟩
      [(Node.ofJson getsElsewhere, none)]) .empty
      (fun _ r => decide (r.pending = []) && !r.references.has "#/S" && missing "#/S" r) = true := by
    decide +kernel
  obtain ⟨n, r, htaken, hcheck⟩ := exists_of_ends hrun
  simp only [Bool.and_eq_true, decide_eq_true_eq, Bool.not_eq_true'] at hcheck
  obtain ⟨r', hf⟩ := exists_of_missing hcheck.2
  exact ⟨n, r, r', htaken, hcheck.1.1, hcheck.1.2, hf⟩

end Generator

end Typings
