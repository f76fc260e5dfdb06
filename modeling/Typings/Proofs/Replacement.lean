import Typings.Proofs.Requests

/-!
What operations are replaced by. The parameters of each location make one schema, each media type of the request body makes a
body and a request with it, and without bodies there is one request if there are parameters (`Replacement`). Each step is made
in the registry that the steps before it leave, and reads what it needs there (`groupsMet`, `bodiesMet`). Main statement:
`synthesize_exact`, what an operation is replaced by in any registry that calls leave.
-/

namespace Typings.Operation

/-! ### Groups of parameters -/

/-- The location of a parameter. -/
def location? (parameter : Node) : Option String := (parameter.fields.get? "in").bind (·.str?)

/-- The parameters of a location. -/
def groupAt (all : List Node) (location : String) : List Node := all.filter fun p => location? p = some location

/-- The content of the schema of a group. -/
def groupContent (mark inner names : ℕ) (properties : Table String Node) (required : List String) : Node :=
  .obj mark [("type", .atom mark (.str "object")), ("properties", .obj inner properties),
    ("required", nameList names required)]

/-- A group of parameters with the schema that it makes. -/
structure Group where
  /-- The location. -/
  location : String
  /-- The schema. -/
  schema : Schema Node
  /-- The names that are required. -/
  required : List String

/-- The properties of requests, one for each group. -/
def propertiesOf (groups : List Group) : List (String × Address) :=
  groups.map fun g => (g.location ++ "Param", g.schema.address)

/-- The properties that are required: those of groups with required names. -/
def requiredOf (groups : List Group) : List String :=
  (groups.filter (!·.required.isEmpty)).map fun g => g.location ++ "Param"

/-- The draft that groups make. -/
def draftOf (groups : List Group) : Draft := ⟨groups.map (·.schema), ⟨texts (propertiesOf groups), requiredOf groups⟩⟩

/-- Register a group. -/
def addGroup (s : Schema Node) (location : String) (group : List Node) : Action Group := do
  let result ← collect group [] []
  let mark ← Action.freshMark
  let inner ← Action.freshMark
  let names ← Action.freshMark
  let schema ← registerPart s (location ++ "Parameter") (groupContent mark inner names result.1 result.2)
  return ⟨location, schema, result.2⟩

/-- **The groups as synthesis comes to them**: each location that has parameters, with the registry that there is by then. -/
def groupsMet (s : Schema Node) (all : List Node) : List String → Registry → List (String × Registry)
  | [], _ => []
  | location :: rest, r =>
    if (groupAt all location).isEmpty then groupsMet s all rest r
    else (location, r) :: groupsMet s all rest (final (addGroup s location (groupAt all location)) r)

/-- **The schema of a group of parameters.** It has a property for each name, typed from the last parameter of that name as it
stands in the registry. -/
structure IsGroup (s : Schema Node) (r : Registry) (group : List Node) (g : Group) : Prop where
  address : g.schema.address = addressOf s (.group g.location)
  content : ∃ mark inner names properties, g.schema.content = groupContent mark inner names properties g.required ∧
    properties.keys = (group.filterMap name?).eraseDups ∧
    ∀ name v, properties.get? name = some v → ∃ front p back source, group = front ++ p :: back ∧ name? p = some name ∧
      (∀ q ∈ back, name? q ≠ some name) ∧ IsTyped r p v source
  nodup : g.required.Nodup
  required : ∀ name, name ∈ g.required ↔ ∃ p ∈ group, name? p = some name ∧ isGiven p "required" = true

/-- **The groups of parameters** at some locations, each in the registry in which synthesis comes to it. -/
def AreGroups (s : Schema Node) (all : List Node) (locations : List String) (r : Registry) (groups : List Group) : Prop :=
  List.Forall₂ (fun met g => g.location = met.1 ∧ IsGroup s met.2 (groupAt all met.1) g) (groupsMet s all locations r) groups

section Groups

variable (s : Schema Node) (all : List Node)

lemma draftOf_append (groups : List Group) (g : Group) : draftOf (groups ++ [g]) =
    ⟨(draftOf groups).schemas ++ [g.schema],
      ⟨(draftOf groups).request.properties ++ [(g.location ++ "Param", g.schema.address.text)],
        if g.required.isEmpty then (draftOf groups).request.required
        else (draftOf groups).request.required ++ [g.location ++ "Param"]⟩⟩ := by
  unfold draftOf propertiesOf requiredOf texts
  cases hrequired : g.required.isEmpty with
  | false => simp [hrequired]
  | true => simp [hrequired]

lemma addGroups_cons (location : String) (rest : List String) (groups : List Group) :
    addGroups s all (location :: rest) (draftOf groups) =
      if (groupAt all location).isEmpty then addGroups s all rest (draftOf groups)
      else (do
        let g ← addGroup s location (groupAt all location)
        addGroups s all rest (draftOf (groups ++ [g]))) := by
  have hgroup : (all.filter fun p => (p.fields.get? "in").bind (·.str?) = some location) = groupAt all location := rfl
  rw [addGroups]
  dsimp only
  rw [hgroup]
  refine if_congr Iff.rfl rfl ?_
  simp only [addGroup, bind_assoc, pure_bind, draftOf_append]
  rfl

lemma map_groupsMet (locations : List String) (r : Registry) :
    (groupsMet s all locations r).map (·.1) =
      locations.filter fun location => all.any fun p => location? p = some location := by
  have hany : ∀ location, (all.any fun p => location? p = some location) = !(groupAt all location).isEmpty := by
    intro location
    rw [Bool.eq_iff_iff]
    simp [groupAt]
  induction locations generalizing r with
  | nil => rfl
  | cons location locations ih =>
    rw [groupsMet, List.filter_cons, hany]
    cases (groupAt all location).isEmpty with
    | true => exact ih r
    | false => exact congrArg (location :: ·) (ih _)

/-- **A group is registered.** -/
lemma addGroup_spec (location : String) (group : List Node) (r : Registry) :
    Yields (addGroup s location group) r (fun g _ => g.location = location ∧ IsGroup s r group g) fun _ _ => True := by
  refine Yields.bind ((collect_spec group [] [] r).mono ?_ fun _ _ h => h)
  rintro ⟨properties, required⟩ _ ⟨-, hcollected⟩
  refine Yields.skip fun mark _ => Yields.skip fun inner _ => Yields.skip fun names r₁ => ?_
  have hpart : Yields (registerPart s (location ++ "Parameter") (groupContent mark inner names properties required)) r₁
      (fun part _ => part = partOf s (.group location) (groupContent mark inner names properties required)) fun _ _ => True :=
    Yields.skip fun _ _ => Yields.skip fun _ _ => Yields.of_pure rfl
  refine Yields.bind (hpart.mono ?_ fun _ _ h => h)
  rintro _ r₂ rfl
  have hkeys : properties.keys = (group.filterMap name?).eraseDups := by
    have hnodup : properties.keys.Nodup := hcollected.nodup List.nodup_nil
    rw [← Table.eraseDups_of_nodup hnodup]
    exact hcollected.keys
  refine Yields.of_pure ⟨rfl, rfl, ⟨mark, inner, names, properties, rfl, hkeys, fun name v hv => ?_⟩,
    hcollected.required_nodup List.nodup_nil, fun name => ?_⟩
  · rcases hcollected.typed name v hv with hlast | ⟨-, hnone⟩
    · exact hlast
    · cases hnone
  · rw [hcollected.required name, or_iff_right List.not_mem_nil]

/-- **All groups are registered**, each in the registry that the ones before it leave. -/
lemma addGroups_spec (locations : List String) (groups : List Group) (r : Registry) :
    Yields (addGroups s all locations (draftOf groups)) r
      (fun draft _ => ∃ more, draft = draftOf (groups ++ more) ∧ AreGroups s all locations r more) fun _ _ => True := by
  induction locations generalizing groups r with
  | nil => exact Yields.of_pure ⟨[], by rw [List.append_nil], .nil⟩
  | cons location locations ih =>
    rw [addGroups_cons]
    unfold AreGroups
    rw [groupsMet]
    cases (groupAt all location).isEmpty with
    | true => exact ih groups r
    | false =>
      refine Yields.bind (Yields.of_outcome (fun g r₁ hrun => ?_) fun _ _ _ => trivial)
      have hg := (addGroup_spec s location (groupAt all location) r).good_of_ok hrun
      refine (ih (groups ++ [g]) r₁).mono ?_ fun _ _ h => h
      rintro draft r₂ ⟨more, rfl, hmore⟩
      refine ⟨g :: more, by rw [List.append_assoc]; rfl, ?_⟩
      rw [← final_of_ok hrun] at hmore
      exact .cons hg hmore

end Groups

/-! ### Request bodies -/

/-- Whether a body is required. -/
def isNeeded (isRequired : Bool) (body : Node) : Action Bool := if isRequired then pure true else hasRequired body

/-- A request with a body. -/
def withBody (request : Request) (body : Address) (needed : Bool) : Request :=
  ⟨request.properties ++ [("body", body.text)], if needed then request.required ++ ["body"] else request.required⟩

/-- Register a body and the request with it. -/
def addBody (s : Schema Node) (isOnly isRequired : Bool) (request : Request) (e : String × Node) :
    Action (Schema Node × Schema Node) := do
  let body ← registerPart s (mediaSegment isOnly e.1 ++ "RequestBody") e.2
  let needed ← isNeeded isRequired e.2
  let w ← addRequest s (if isOnly then "request" else mediaSegment isOnly e.1 ++ "Request")
    (withBody request body.address needed)
  return (body, w)

/-- **The bodies as synthesis comes to them**: each media type with its schema, and the registry right after the body has been
registered. -/
def bodiesMet (s : Schema Node) (isOnly isRequired : Bool) (request : Request) :
    List (String × Node) → Registry → List ((String × Node) × Registry)
  | [], _ => []
  | e :: rest, r =>
    (e, final (registerPart s (mediaSegment isOnly e.1 ++ "RequestBody") e.2) r) ::
      bodiesMet s isOnly isRequired request rest (final (addBody s isOnly isRequired request e) r)

/-- **A body and the request with it**, for a media type. The body is required if the request body is, or if what it stands for
has required members of its own. -/
structure IsVariant (s : Schema Node) (groups : List Group) (isOnly isRequired : Bool) (r : Registry)
    (met : (String × Node) × Registry) (pair : Schema Node × Schema Node) : Prop where
  address : pair.1.address = addressOf s (.body (if isOnly then "" else mediaName met.1.1))
  content : pair.1.content = met.1.2
  request : ∃ needed : Bool,
    (needed = true ↔ isRequired = true ∨ ∃ target, StandsFor met.2 met.1.2 target ∧ isGiven target "required" = true) ∧
    IsRequest s r (if isOnly then none else some (mediaName met.1.1)) (propertiesOf groups ++ [("body", pair.1.address)])
      (requiredOf groups ++ if needed then ["body"] else []) pair.2

/-- Bodies with their requests, in order. -/
def schemasOf (pairs : List (Schema Node × Schema Node)) : List (Schema Node) := pairs.flatMap fun pair => [pair.1, pair.2]

section Bodies

variable {s : Schema Node} {groups : List Group} {isOnly isRequired : Bool} {a : ℕ} {r : Registry}

lemma addBodies_cons (s : Schema Node) (isOnly isRequired : Bool) (request : Request) (e : String × Node)
    (media : List (String × Node)) : addBodies s isOnly isRequired request (e :: media) = (do
      let pair ← addBody s isOnly isRequired request e
      let others ← addBodies s isOnly isRequired request media
      return pair.1 :: pair.2 :: others) := by
  obtain ⟨mediaType, body⟩ := e
  cases isRequired with
  | true => simp [addBodies, addBody, addRequest, isNeeded, withBody]
  | false => simp [addBodies, addBody, addRequest, isNeeded, withBody]

lemma map_bodiesMet (s : Schema Node) (isOnly isRequired : Bool) (request : Request) (media : List (String × Node))
    (r : Registry) : (bodiesMet s isOnly isRequired request media r).map (·.1) = media := by
  induction media generalizing r with
  | nil => rfl
  | cons e media ih => exact congrArg (e :: ·) (ih _)

lemma isNeeded_spec (isRequired : Bool) (body : Node) (r : Registry) :
    Yields (isNeeded isRequired body) r
      (fun needed r' => r' = r ∧
        (needed = true ↔ isRequired = true ∨ ∃ target, StandsFor r body target ∧ isGiven target "required" = true))
      fun _ _ => True := by
  cases isRequired with
  | true => exact Yields.of_pure ⟨rfl, by simp⟩
  | false =>
    refine Yields.bind ((resolved_standsFor body r).mono ?_ fun _ _ h => h)
    rintro target _ ⟨rfl, htarget⟩
    refine Yields.of_pure ⟨rfl, fun hgiven => Or.inr ⟨target, htarget, hgiven⟩, ?_⟩
    rintro (hfalse | ⟨target', htarget', hgiven⟩)
    · cases hfalse
    · rwa [htarget.unique htarget']

/-- **A body is registered with its request.** -/
lemma addBody_spec (hgroups : ReferToParts s (propertiesOf groups)) (hr : r.IsFresh)
    (ha : a ≤ r.next) {e : String × Node} (he : e.2.bound ≤ a) :
    Yields (addBody s isOnly isRequired (draftOf groups).request e) r
      (fun pair r' => r.Keeps a r' ∧ ∀ r'', r'.Spares a r'' → IsVariant s groups isOnly isRequired r''
        (e, final (registerPart s (mediaSegment isOnly e.1 ++ "RequestBody") e.2) r) pair)
      fun _ _ => True := by
  refine Yields.bind (Yields.of_outcome (fun body r₁ hrun => ?_) fun _ _ _ => trivial)
  obtain ⟨rfl, hkeeps⟩ := (registerPart_keeps s (name_body isOnly e.1) he hr ha).good_of_ok hrun
  rw [final_of_ok hrun]
  refine Yields.bind ((isNeeded_spec isRequired e.2 r₁).mono ?_ fun _ _ h => h)
  rintro needed _ ⟨rfl, hneeded⟩
  have hname : (if isOnly then "request" else mediaSegment isOnly e.1 ++ "Request") =
      (Part.request (if isOnly then none else some (mediaName e.1))).name := by
    rw [name_request]
    cases isOnly <;> rfl
  have hparts : ReferToParts s
      (propertiesOf groups ++ [("body", addressOf s (.body (if isOnly then "" else mediaName e.1)))]) := by
    intro e' he'
    rcases List.mem_append.1 he' with he' | he'
    · exact hgroups e' he'
    · rw [List.mem_singleton.1 he']
      exact ⟨.body _, trivial, rfl⟩
  have hvariant : withBody (draftOf groups).request (addressOf s (.body (if isOnly then "" else mediaName e.1))) needed =
      ⟨texts (propertiesOf groups ++ [("body", addressOf s (.body (if isOnly then "" else mediaName e.1)))]),
        requiredOf groups ++ if needed then ["body"] else []⟩ := by
    unfold withBody draftOf texts
    cases needed with
    | true => simp
    | false => simp
  have hwritten := addRequest_written s hname hparts (requiredOf groups ++ if needed then ["body"] else []) hkeeps.fresh
    (ha.trans hkeeps.next)
  rw [← hvariant] at hwritten
  refine Yields.bind (hwritten.mono ?_ fun _ _ h => h)
  rintro w r₂ ⟨hkeeps', hw⟩
  exact Yields.of_pure ⟨hkeeps.trans hkeeps', fun r₃ hspares => ⟨rfl, rfl, needed, hneeded, hw r₃ hspares⟩⟩

/-- **All bodies are registered with their requests**, each in the registry that the ones before it leave. -/
lemma addBodies_spec (hgroups : ReferToParts s (propertiesOf groups)) (hr : r.IsFresh)
    (ha : a ≤ r.next) {media : List (String × Node)} (hmedia : ∀ e ∈ media, e.2.bound ≤ a) :
    Yields (addBodies s isOnly isRequired (draftOf groups).request media) r
      (fun made r' => r.Keeps a r' ∧ ∃ pairs, made = schemasOf pairs ∧ ∀ r'', r'.Spares a r'' →
        List.Forall₂ (IsVariant s groups isOnly isRequired r'')
          (bodiesMet s isOnly isRequired (draftOf groups).request media r) pairs)
      fun _ _ => True := by
  induction media generalizing r with
  | nil => exact Yields.of_pure ⟨hr.keeps a, [], rfl, fun _ _ => .nil⟩
  | cons e media ih =>
    obtain ⟨he, hmedia⟩ := List.forall_mem_cons.1 hmedia
    rw [addBodies_cons, bodiesMet]
    refine Yields.bind (Yields.of_outcome (fun pair r₁ hrun => ?_) fun _ _ _ => trivial)
    obtain ⟨hkeeps, hpair⟩ := (addBody_spec hgroups hr ha he).good_of_ok hrun
    rw [final_of_ok hrun]
    refine Yields.bind ((ih hkeeps.fresh (ha.trans hkeeps.next) hmedia).mono ?_ fun _ _ h => h)
    rintro _ r₂ ⟨hkeeps', pairs, rfl, hpairs⟩
    refine Yields.of_pure ⟨hkeeps.trans hkeeps', pair :: pairs, rfl, fun r₃ hspares => ?_⟩
    exact .cons (hpair r₃ (hkeeps'.toSpares.trans hspares)) (hpairs r₃ hspares)

/-- What a node stands for has its media types below `a`. -/
lemma StandsFor.bound_content {node body : Node} (h : StandsFor r node body) (hnode : node.bound ≤ a) (hbelow : r.OffersBelow a)
    {m : ℕ} {media : Table String Node} (hmedia : body.fields.get? "content" = some (.obj m media)) :
    ∀ e ∈ media, e.2.bound ≤ a := by
  have hbound : (Node.obj m media).bound ≤ a := by
    cases h with
    | target _ hs => exact hbelow _ (Registry.mem_of_dereference hs) _ hmedia
    | itself _ => exact (Node.bound_le_of_get? hmedia).trans hnode
  exact (Node.bound_obj_le.1 hbound).2

/-- **The request body of an operation**, as it stands in a registry. -/
inductive IsBody (s : Schema Node) (r : Registry) : Option Node → Prop
  | absent (h : s.content.fields.get? "requestBody" = none) : IsBody s r none
  | given {node body : Node} (h : s.content.fields.get? "requestBody" = some node) (hbody : StandsFor r node body) :
    IsBody s r (some body)

/-- The media types of a request body. -/
def mediaIn (body : Option Node) : Table String Node := (body.map contentOf).getD []

/-- Whether a request body says that it is required. -/
def isMandatory (body : Option Node) : Bool :=
  (body.bind (·.fields.get? "required")).any fun v => match v with
    | .atom _ (.bool b) => b
    | _ => false

/-- The bodies of a request body as synthesis comes to them. -/
def variantsMet (s : Schema Node) (groups : List Group) (body : Option Node) (r : Registry) :
    List ((String × Node) × Registry) :=
  bodiesMet s ((mediaIn body).length = 1) (isMandatory body) (draftOf groups).request (mediaSchemas (mediaIn body)) r

/-- The bodies with their requests that a request body makes. -/
def AreVariants (s : Schema Node) (groups : List Group) (body : Option Node) (r r' : Registry)
    (pairs : List (Schema Node × Schema Node)) : Prop :=
  List.Forall₂ (IsVariant s groups ((mediaIn body).length = 1) (isMandatory body) r') (variantsMet s groups body r) pairs

lemma requestBodies_spec (hgroups : ReferToParts s (propertiesOf groups)) (hr : r.IsFresh)
    (hs : s.content.bound ≤ a) (ha : a ≤ r.next) (hbelow : r.OffersBelow a) :
    Yields (requestBodies s (draftOf groups).request) r
      (fun made r' => r.Keeps a r' ∧ ∃ body pairs, IsBody s r body ∧ made = schemasOf pairs ∧
        ∀ r'', r'.Spares a r'' → AreVariants s groups body r r'' pairs)
      fun _ _ => True := by
  -- a body without media types makes nothing
  have hnone : ∀ {body : Option Node}, IsBody s r body → mediaIn body = [] →
      Yields (pure [] : Action (List (Schema Node))) r
        (fun made r' => r.Keeps a r' ∧ ∃ body pairs, IsBody s r body ∧ made = schemasOf pairs ∧
          ∀ r'', r'.Spares a r'' → AreVariants s groups body r r'' pairs)
        fun _ _ => True := by
    intro body hbody hmedia
    refine Yields.of_pure ⟨hr.keeps a, body, [], hbody, rfl, fun r'' _ => ?_⟩
    rw [AreVariants, variantsMet, hmedia]
    exact .nil
  unfold requestBodies
  cases hnode : s.content.fields.get? "requestBody" with
  | none => exact hnone (.absent hnode) rfl
  | some node =>
    refine Yields.bind ((resolved_standsFor node r).mono ?_ fun _ _ h => h)
    rintro body r₁ ⟨rfl, hbody⟩
    have hmedia : mediaIn (some body) = contentOf body := rfl
    rcases hcontent : body.fields.get? "content" with _ | ⟨m, v⟩ | ⟨m, xs⟩ | ⟨m, media⟩
    · exact hnone (.given hnode hbody) (by rw [hmedia, contentOf, hcontent])
    · exact hnone (.given hnode hbody) (by rw [hmedia, contentOf, hcontent])
    · exact hnone (.given hnode hbody) (by rw [hmedia, contentOf, hcontent])
    · rw [contentOf, hcontent] at hmedia
      have hbound := hbody.bound_content ((Node.bound_le_of_get? hnode).trans hs) hbelow hcontent
      refine (addBodies_spec hgroups hr ha (KeepsFresh.mediaSchemas_bound hbound)).mono ?_ fun _ _ h => h
      rintro made r₂ ⟨hkeeps, pairs, hmade, hpairs⟩
      refine ⟨hkeeps, some body, pairs, .given hnode hbody, hmade, fun r₃ hspares => ?_⟩
      rw [AreVariants, variantsMet, hmedia]
      exact hpairs r₃ hspares

/-- **Requests are registered**: one for each body, or one without a body if there are groups but no bodies. -/
lemma requests_spec (hgroups : ReferToParts s (propertiesOf groups)) (hr : r.IsFresh)
    (hs : s.content.bound ≤ a) (ha : a ≤ r.next) (hbelow : r.OffersBelow a) :
    Yields (requests s (draftOf groups)) r
      (fun made r' => r.Keeps a r' ∧ ∃ body pairs plain, IsBody s r body ∧ made = schemasOf pairs ++ plain.toList ∧
        (plain.isSome = true ↔ pairs = [] ∧ groups ≠ []) ∧ ∀ r'', r'.Spares a r'' → AreVariants s groups body r r'' pairs ∧
          ∀ w, plain = some w → IsRequest s r'' none (propertiesOf groups) (requiredOf groups) w)
      fun _ _ => True := by
  have hempty : ∀ {pairs : List (Schema Node × Schema Node)},
      ((schemasOf pairs).isEmpty && !(draftOf groups).request.properties.isEmpty) = true ↔ pairs = [] ∧ groups ≠ [] := by
    intro pairs
    cases pairs <;> cases groups <;> simp [schemasOf, draftOf, texts, propertiesOf]
  refine Yields.bind ((requestBodies_spec hgroups hr hs ha hbelow).mono ?_ fun _ _ h => h)
  rintro _ r₁ ⟨hkeeps, body, pairs, hbody, rfl, hpairs⟩
  dsimp only
  split_ifs with hplain
  · have hname : "request" = (Part.request none).name := rfl
    have hwritten := addRequest_written s hname hgroups (requiredOf groups) hkeeps.fresh (ha.trans hkeeps.next)
    have hone : ∀ (f : Schema Node → Action (List (Schema Node))), (do
        let content ← Action.adopt (Node.ofJson (draftOf groups).request.toJson)
        let w ← registerPart s "request" content
        f w) = addRequest s "request" (draftOf groups).request >>= f := fun f => (bind_assoc _ _ _).symm
    simp only [pure_bind]
    rw [hone]
    refine Yields.bind (hwritten.mono ?_ fun _ _ h => h)
    rintro w r₂ ⟨hkeeps', hw⟩
    refine Yields.of_pure ⟨hkeeps.trans hkeeps', body, pairs, some w, hbody, rfl, ?_, fun r₃ hspares => ⟨?_, ?_⟩⟩
    · exact ⟨fun _ => hempty.1 hplain, fun _ => rfl⟩
    · exact hpairs r₃ (hkeeps'.toSpares.trans hspares)
    · rintro _ ⟨⟩
      exact hw r₃ hspares
  · rw [pure_bind]
    refine Yields.of_pure ⟨hkeeps, body, pairs, none, hbody, rfl, ?_, fun r₃ hspares => ⟨hpairs r₃ hspares, ?_⟩⟩
    · exact ⟨fun hsome => absurd hsome Bool.false_ne_true, fun h => absurd (hempty.2 h) hplain⟩
    · rintro _ ⟨⟩

/-! ### Responses -/

lemma addResponse_keeps (hr : r.IsFresh) (ha : a ≤ r.next) (status : String) {media : List (String × Node)}
    (hmedia : ∀ e ∈ media, e.2.bound ≤ a) :
    Yields (addResponse s status isOnly media) r (fun _ r' => r.Keeps a r') fun _ _ => True := by
  induction media generalizing r with
  | nil => exact Yields.of_pure (hr.keeps a)
  | cons e media ih =>
    obtain ⟨he, hmedia⟩ := List.forall_mem_cons.1 hmedia
    refine Yields.bind ((registerPart_keeps s (name_response isOnly e.1 status) he hr ha).mono ?_ fun _ _ h => h)
    rintro _ r₁ ⟨-, hkeeps⟩
    refine Yields.bind ((ih hkeeps.fresh (ha.trans hkeeps.next) hmedia).mono ?_ fun _ _ h => h)
    exact fun _ r₂ hkeeps' => Yields.of_pure (hkeeps.trans hkeeps')

/-- **Responses leave requests alone.** -/
lemma addResponses_keeps (hr : r.IsFresh) (ha : a ≤ r.next) (hbelow : r.OffersBelow a) {responses : List (String × Node)}
    (hresponses : ∀ e ∈ responses, e.2.bound ≤ a) :
    Yields (addResponses s responses) r (fun _ r' => r.Keeps a r') fun _ _ => True := by
  induction responses generalizing r with
  | nil => exact Yields.of_pure (hr.keeps a)
  | cons e responses ih =>
    obtain ⟨he, hresponses⟩ := List.forall_mem_cons.1 hresponses
    rw [addResponses]
    refine Yields.bind ((resolved_standsFor e.2 r).mono ?_ fun _ _ h => h)
    rintro response r₁ ⟨rfl, hresponse⟩
    have hrest : ∀ (first : List (Schema Node)) (r₂ : Registry), r₁.Keeps a r₂ →
        Yields (do let others ← addResponses s responses; return first ++ others) r₂ (fun _ r' => r₁.Keeps a r')
          fun _ _ => True := by
      intro first r₂ hkeeps
      refine Yields.bind ((ih hkeeps.fresh (ha.trans hkeeps.next) (hkeeps.below hbelow) hresponses).mono ?_ fun _ _ h => h)
      exact fun _ r₃ hkeeps' => Yields.of_pure (hkeeps.trans hkeeps')
    rcases hcontent : response.fields.get? "content" with _ | ⟨m, v⟩ | ⟨m, xs⟩ | ⟨m, media⟩
    · exact hrest _ r₁ (hr.keeps a)
    · exact hrest _ r₁ (hr.keeps a)
    · exact hrest _ r₁ (hr.keeps a)
    · have hbound := hresponse.bound_content he hbelow hcontent
      exact Yields.bind ((addResponse_keeps hr ha e.1 (KeepsFresh.mediaSchemas_bound hbound)).mono hrest fun _ _ h => h)

end Bodies

/-! ### The whole synthesis -/

/-- What an operation is replaced by. -/
structure Replacement where
  /-- The groups of its parameters. -/
  groups : List Group
  /-- Its request body, if it names one. -/
  body : Option Node
  /-- The bodies, each with its request. -/
  variants : List (Schema Node × Schema Node)
  /-- The request without a body. -/
  plain : Option (Schema Node)
  /-- The responses. -/
  responses : List (Schema Node)

/-- The schemas, in order. -/
def Replacement.schemas (x : Replacement) : List (Schema Node) :=
  x.groups.map (·.schema) ++ (schemasOf x.variants ++ x.plain.toList) ++ x.responses

/-- **The replacement of an operation** with the parameters `all`, from the registry `r` to the registry `r'`. -/
structure IsReplacement (s : Schema Node) (all : List Node) (r r' : Registry) (x : Replacement) : Prop where
  /-- There is a group for each location that a parameter has. -/
  used : x.groups.map (·.location) = locations.filter fun location => all.any fun p => location? p = some location
  groups : AreGroups s all locations (final (Action.tell (.synthesizing s.address.text)) r) x.groups
  body : IsBody s (final (opening s) r) x.body
  /-- There is a body with its request for each media type that has a schema. -/
  count : x.variants.length = (mediaSchemas (mediaIn x.body)).length
  variants : AreVariants s x.groups x.body (final (opening s) r) r' x.variants
  /-- There is a request without a body if no media type has a schema, and there are parameters. -/
  plain : x.plain.isSome = true ↔ mediaSchemas (mediaIn x.body) = [] ∧ x.groups ≠ []
  request : ∀ w, x.plain = some w → IsRequest s r' none (propertiesOf x.groups) (requiredOf x.groups) w
  responses : x.responses.map (·.address) =
    (responsesParts (responsesMet s (responsesOf s) (final (opening s >>= requests s) r))).map (addressOf s)

section Synthesis

variable {s : Schema Node} {all : List Node} {r : Registry} {groups : List Group}

lemma opening_spec (s : Schema Node) (r : Registry) :
    Yields (opening s) r
      (fun draft _ => ∃ raw groups, List.Forall₂ (StandsFor r) (listed s.content) raw ∧ draft = draftOf groups ∧
        AreGroups s (raw.filter (·.isObject)) locations (final (Action.tell (.synthesizing s.address.text)) r) groups)
      fun _ _ => True := by
  refine Yields.bind (Yields.of_modify ?_)
  refine Yields.bind ((parameters_stand s.content _).mono ?_ fun _ _ h => h)
  rintro _ _ ⟨rfl, raw, hraw, rfl⟩
  refine (addGroups_spec s _ locations [] _).mono ?_ fun _ _ h => h
  rintro draft r₁ ⟨groups, rfl, hgroups⟩
  exact ⟨raw, groups, hraw.imp fun _ _ h => h.congr rfl rfl rfl, rfl, hgroups⟩

lemma AreGroups.map_location (h : AreGroups s all locations r groups) :
    groups.map (·.location) = locations.filter fun location => all.any fun p => location? p = some location := by
  have hsame : List.Forall₂ Eq (groups.map (·.location)) ((groupsMet s all locations r).map (·.1)) := by
    rw [List.forall₂_map_left_iff, List.forall₂_map_right_iff]
    exact (List.Forall₂.imp (fun _ _ hg => hg.1) h).flip
  rw [← map_groupsMet s all locations r]
  exact List.forall₂_eq_eq_eq ▸ hsame

/-- The properties of requests refer to parts of the operation. -/
lemma AreGroups.referToParts (h : AreGroups s all locations r groups) : ReferToParts s (propertiesOf groups) := by
  intro e he
  obtain ⟨g, hg, rfl⟩ := List.mem_map.1 he
  have hlocation : g.location ∈ locations := by
    have hmem : g.location ∈ groups.map (·.location) := List.mem_map_of_mem hg
    rw [h.map_location] at hmem
    exact List.mem_of_mem_filter hmem
  have haddress : ∀ g ∈ groups, g.schema.address = addressOf s (.group g.location) := by
    clear hlocation hg he
    unfold AreGroups at h
    generalize groupsMet s all locations r = mets at h
    induction h with
    | nil => exact fun _ hg => absurd hg List.not_mem_nil
    | cons hg _ ih => exact List.forall_mem_cons.2 ⟨hg.2.address, ih⟩
  exact ⟨.group g.location, hlocation, haddress g hg⟩

end Synthesis

/-- **Synthesis is exact.** In any registry that calls leave, an operation of the registry is replaced by a schema for each
location of its parameters, a body and a request for each media type that has a schema, or one request without a body, and the
responses. The requests refer to the schemas of the groups and to their own bodies; a reference stays what was put there if
that is absolute or the operation lies in one document. -/
theorem synthesize_exact {calls : List Call} (hcalls : Call.AllOwn calls .empty) {s : Schema Node}
    (hs : (Call.leftAll calls .empty).Stores s) (hoperation : s.operation = true) {made : List (Schema Node)} {r' : Registry}
    (h : synthesize s (Call.leftAll calls .empty) = .ok made r') :
    ∃ raw x, List.Forall₂ (StandsFor (Call.leftAll calls .empty)) (listed s.content) raw ∧ made = x.schemas ∧
      IsReplacement s (raw.filter (·.isObject)) (Call.leftAll calls .empty) r' x := by
  have hr := Call.isFresh_leftAll hcalls Registry.isFresh_empty
  generalize Call.leftAll calls .empty = r at *
  have hbound := hr.stored s hs
  suffices hyields : Yields (synthesize s) r (fun made r' => ∃ raw x, List.Forall₂ (StandsFor r) (listed s.content) raw ∧
      made = x.schemas ∧ IsReplacement s (raw.filter (·.isObject)) r r' x) fun _ _ => True from hyields.good_of_ok h
  rw [synthesize_eq s hoperation]
  refine Yields.bind (Yields.of_outcome (fun draft r₁ hopening => ?_) fun _ _ _ => trivial)
  obtain ⟨raw, groups, hraw, rfl, hgroups⟩ := (opening_spec s r).good_of_ok hopening
  obtain ⟨hr₁, hnext, -⟩ := (KeepsFresh.opening hbound r hr le_rfl).good_of_ok hopening
  refine Yields.bind (Yields.of_outcome (fun requested r₂ hrequests => ?_) fun _ _ _ => trivial)
  obtain ⟨hkeeps, body, variants, plain, hbody, rfl, hplain, hlasting⟩ :=
    (requests_spec hgroups.referToParts hr₁ (hbound.trans hnext) le_rfl hr₁.offersBelow).good_of_ok hrequests
  -- the responses leave the texts of the requests alone
  have hresponses := addResponses_keeps (s := s) hkeeps.fresh hkeeps.next (hkeeps.below hr₁.offersBelow)
    fun e he => (KeepsFresh.bound_responsesOf he).trans (hbound.trans hnext)
  refine Yields.bind (((addResponses_gives s (responsesOf s) r₂).and hresponses).mono ?_ fun _ _ _ => trivial)
  rintro responses r₃ ⟨⟨_, -, hmade⟩, hkeeps'⟩
  obtain ⟨hvariants, hrequest⟩ := hlasting r₃ hkeeps'.toSpares
  have hcount : variants.length = (mediaSchemas (mediaIn body)).length := by
    rw [← hvariants.length_eq, ← List.length_map (·.1), variantsMet, map_bodiesMet]
  have hfinal₁ : final (opening s) r = r₁ := final_of_ok hopening
  have hfinal₂ : final (opening s >>= requests s) r = r₂ := by rw [final_bind_of_ok hopening, final_of_ok hrequests]
  refine Yields.of_pure ⟨raw, ⟨groups, body, variants, plain, responses⟩, hraw, rfl, ?_⟩
  refine ⟨hgroups.map_location, hgroups, hfinal₁ ▸ hbody, hcount, hfinal₁ ▸ hvariants, ?_, hrequest,
    hfinal₂ ▸ hmade.addresses⟩
  rw [hplain, ← List.length_eq_zero_iff, hcount, List.length_eq_zero_iff]

/-- The calls that open one document. -/
def opened (v : Json) : List Call := [.document (Node.ofJson v) none]

/-- The operation at an address is replaced, and `p` holds of it, of its schemas and of the registry that is left. -/
def replaces (key : String) (p : Schema Node → List (Schema Node) → Registry → Bool) (r : Registry) : Bool :=
  match r.schemas.get? key with
  | some s => s.operation && ends (synthesize s) r (p s)
  | none => false

lemma exists_of_replaces {key : String} {p : Schema Node → List (Schema Node) → Registry → Bool} {r : Registry}
    (h : replaces key p r = true) :
    ∃ s made r', r.Stores s ∧ s.operation = true ∧ synthesize s r = .ok made r' ∧ p s made r' = true := by
  unfold replaces at h
  split at h
  · next s hs =>
    obtain ⟨hoperation, hends⟩ := Bool.and_eq_true_iff.1 h
    obtain ⟨made, r', hrun, hp⟩ := exists_of_ends hends
    exact ⟨s, made, r', Or.inl (Table.mem_values_of_get? hs), hoperation, hrun, hp⟩
  · cases h

/-- What the property of a schema refers to. -/
def referent? (refs : Refs) (property : String) (s : Schema Node) : Option String :=
  ((s.content.fields.get? "properties").bind (·.fields.get? property)).bind (·.reference? refs)

/-- A document whose operation has parameters of three locations, one by reference and two of one name, and a request body with
two media types that have a schema and one that has none. -/
def putsTwoMedia : Json :=
  .obj [("openapi", .str "3.0.0"),
    ("paths", .obj [("/p", .obj [
      ("parameters", .arr [.obj [("name", .str "id"), ("in", .str "path"), ("required", .bool true)]]),
      ("put", .obj [
        ("parameters", .arr [.obj [("name", .str "a"), ("in", .str "query"), ("required", .bool true)],
          .obj [("$ref", .str "/shared/trace")],
          .obj [("name", .str "a"), ("in", .str "query"), ("schema", .obj [("type", .str "array")])]]),
        ("requestBody", .obj [("content", .obj [
          ("application/json", .obj [("schema", .obj [("$ref", .str "#/components/schemas/S")])]),
          ("text/plain", .obj [("schema", .obj [("type", .str "string")])]), ("image/png", .obj [])])])])])]),
    ("components", .obj [
      ("parameters", .obj [("T", .obj [("$id", .str "/shared/trace"), ("name", .str "trace"), ("in", .str "header")])]),
      ("schemas", .obj [("S", .obj [("type", .str "object"), ("required", .arr [.str "z"])])])])]

/-- Both requests have the three groups, and refer to their own bodies. -/
theorem synthesize_exact_twoMedia : ∃ s made r', Call.AllOwn (opened putsTwoMedia) .empty ∧
    (Call.leftAll (opened putsTwoMedia) .empty).Stores s ∧ s.operation = true ∧ LiesIn s "" ∧
    synthesize s (Call.leftAll (opened putsTwoMedia) .empty) = .ok made r' ∧
    made.map (·.address.text) = ["#/paths/p/put/pathParameter", "#/paths/p/put/queryParameter", "#/paths/p/put/headerParameter",
      "#/paths/p/put/jsonRequestBody", "#/paths/p/put/jsonRequest", "#/paths/p/put/textRequestBody",
      "#/paths/p/put/textRequest"] ∧
    made.map (referent? r'.refs "body") = [none, none, none, none, some "#/paths/p/put/jsonRequestBody", none,
      some "#/paths/p/put/textRequestBody"] ∧
    ∃ raw x, List.Forall₂ (StandsFor (Call.leftAll (opened putsTwoMedia) .empty)) (listed s.content) raw ∧ made = x.schemas ∧
      IsReplacement s (raw.filter (·.isObject)) (Call.leftAll (opened putsTwoMedia) .empty) r' x := by
  have hrun : replaces "#/paths/p/put" (fun s made r' =>
      decide (s.scope = ["#", "#/paths/p/put"]) &&
      decide (made.map (·.address.text) = ["#/paths/p/put/pathParameter", "#/paths/p/put/queryParameter",
        "#/paths/p/put/headerParameter", "#/paths/p/put/jsonRequestBody", "#/paths/p/put/jsonRequest",
        "#/paths/p/put/textRequestBody", "#/paths/p/put/textRequest"]) &&
      decide (made.map (referent? r'.refs "body") = [none, none, none, none, some "#/paths/p/put/jsonRequestBody", none,
        some "#/paths/p/put/textRequestBody"])) (Call.leftAll (opened putsTwoMedia) .empty) = true := by
    decide +kernel
  obtain ⟨s, made, r', hs, hoperation, hmade, hp⟩ := exists_of_replaces hrun
  simp only [Bool.and_eq_true, decide_eq_true_eq] at hp
  obtain ⟨⟨hscope, haddresses⟩, hbodies⟩ := hp
  have hcalls : Call.AllOwn (opened putsTwoMedia) .empty := ⟨trivial, trivial⟩
  have hlies : LiesIn s "" := by
    refine ⟨Or.inl rfl, fun text htext => ?_⟩
    rw [hscope] at htext
    rcases List.mem_cons.1 htext with rfl | htext
    · exact ⟨[], by decide⟩
    · rw [List.mem_singleton.1 htext]
      exact ⟨["paths", "p", "put"], by decide +kernel⟩
  exact ⟨s, made, r', hcalls, hs, hoperation, hlies, hmade, haddresses, hbodies, synthesize_exact hcalls hs hoperation hmade⟩

/-- A document on the web whose operation has an id that is no address on the web. -/
def postsUnderUrn : Json :=
  .obj [("openapi", .str "3.0.0"), ("$id", .str "http://h/d"),
    ("paths", .obj [("/p", .obj [("post", .obj [("$id", .str "urn:foo"),
      ("parameters", .arr [.obj [("name", .str "a"), ("in", .str "query"), ("required", .bool true)]]),
      ("requestBody", .obj [("content", .obj [("application/json",
        .obj [("schema", .obj [("type", .str "object"), ("required", .arr [.str "z"])])])])])])])])]

/-- **A request that does not refer to its body.** The addresses of the group and of the body are not absolute, and the request
reads them once more, inside the document: it refers to addresses where nothing is. -/
theorem request_misses_body : ∃ s made r', (Call.leftAll (opened postsUnderUrn) .empty).Stores s ∧ s.operation = true ∧
    synthesize s (Call.leftAll (opened postsUnderUrn) .empty) = .ok made r' ∧
    made.map (·.address.text) = ["/urn:foo#/queryParameter", "/urn:foo#/RequestBody", "/urn:foo#/request"] ∧
    made.map (referent? r'.refs "body") = [none, none, some "http://h/urn:foo#/RequestBody"] ∧
    made.map (referent? r'.refs "queryParam") = [none, none, some "http://h/urn:foo#/queryParameter"] ∧
    r'.lookup? "http://h/urn:foo#/RequestBody" = none := by
  have hrun : replaces "/urn:foo#" (fun _ made r' =>
      decide (made.map (·.address.text) = ["/urn:foo#/queryParameter", "/urn:foo#/RequestBody", "/urn:foo#/request"]) &&
      decide (made.map (referent? r'.refs "body") = [none, none, some "http://h/urn:foo#/RequestBody"]) &&
      decide (made.map (referent? r'.refs "queryParam") = [none, none, some "http://h/urn:foo#/queryParameter"]) &&
      (r'.lookup? "http://h/urn:foo#/RequestBody").isNone) (Call.leftAll (opened postsUnderUrn) .empty) = true := by
    decide +kernel
  obtain ⟨s, made, r', hs, hoperation, hmade, hp⟩ := exists_of_replaces hrun
  simp only [Bool.and_eq_true, decide_eq_true_eq, Option.isNone_iff_eq_none] at hp
  obtain ⟨⟨⟨haddresses, hbody⟩, hquery⟩, hnone⟩ := hp
  exact ⟨s, made, r', hs, hoperation, hmade, haddresses, hbody, hquery, hnone⟩

end Typings.Operation
