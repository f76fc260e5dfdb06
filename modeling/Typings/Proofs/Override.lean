import Typings.Proofs.Copies

/-!
Parameters of paths and of operations. An operation has its own parameters and those of its path that it does not override. Two
parameters that are written out are compared by name and location, and a reference is overridden by the very same reference only.
So a parameter of the path may stay beside one of the operation with its name and location. The property of the name is that of
the operation's parameter all the same, since the later one decides; but a name is required if either of the two is required.
Main statement: `synthesize_overrides`.
-/

namespace Typings.Operation

open Discovery (kept overrides parameterKey ParameterKey)

/-! ### Parameters by name and location -/

/-- What a node stands for in a registry, if it stands for anything. -/
def target? (r : Registry) (node : Node) : Option Node :=
  match node.reference? r.refs with
  | none => some node
  | some text => (r.dereference text).toOption.map (·.content)

/-- The parameter with a name and a location that a node stands for. -/
def parameterAt (r : Registry) (name location : String) (node : Node) : Option Node :=
  (target? r node).filter fun x => x.isObject && decide (name? x = some name) && decide (location? x = some location)

/-- The parameters with a name and a location among those that nodes stand for. -/
def parametersAt (r : Registry) (name location : String) (nodes : List Node) : List Node :=
  nodes.filterMap (parameterAt r name location)

/-- **The parameter that decides**, for a name and a location: the operation's own if there is one, else that of the path. -/
def deciding (r : Registry) (shared own : List Node) (name location : String) : Option Node :=
  (parametersAt r name location own).getLast?.or (parametersAt r name location shared).getLast?

section Targets

variable {r : Registry} {node x : Node} {nodes raw shared own : List Node} {name location : String}

lemma StandsFor.target?_eq (h : StandsFor r node x) : target? r node = some x := by
  unfold target?
  cases h with
  | target href hs =>
    rw [href]
    dsimp only
    rw [hs]
    rfl
  | itself href => rw [href]

lemma filterMap_target? (h : List.Forall₂ (StandsFor r) nodes raw) : nodes.filterMap (target? r) = raw := by
  induction h with
  | nil => rfl
  | cons hx _ ih => rw [List.filterMap_cons_some hx.target?_eq, ih]

/-- The parameters of a name are those in the group of the location that have the name. -/
lemma parametersAt_eq (h : List.Forall₂ (StandsFor r) nodes raw) (name location : String) :
    parametersAt r name location nodes =
      (groupAt (raw.filter (·.isObject)) location).filter fun p => decide (name? p = some name) := by
  unfold parametersAt parameterAt groupAt
  rw [← List.filter_filterMap, filterMap_target? h, List.filter_filter, List.filter_filter]
  refine List.filter_congr fun p _ => ?_
  cases p.isObject <;> simp [Bool.and_comm]

lemma parameterAt_eq_some : parameterAt r name location node = some x ↔
    target? r node = some x ∧ x.isObject = true ∧ name? x = some name ∧ location? x = some location := by
  unfold parameterAt
  rw [Option.filter_eq_some_iff]
  simp [and_assoc]

end Targets

/-! ### Which names are overridden -/

/-- Whether a node is a reference. -/
def isReference (node : Node) : Bool := (node.reference? []).isSome

/-- **A parameter of a path is overridden**: the operation has one with its name and location, and either both are written out
or both are the very same node. -/
def IsOverridden (r : Registry) (own : List Node) (name location : String) (node : Node) : Prop :=
  ∃ m ∈ own, (parameterAt r name location m).isSome = true ∧
    (node.isSame m = true ∨ isReference node = false ∧ isReference m = false)

/-- Parameters of a path and of an operation in one document, in which no reference has a name beside it. -/
structure AreComparable (shared own : List Node) : Prop where
  same : ∀ n ∈ shared, ∀ m ∈ own, n.isObject = true → n.isSame m = true → n = m
  nameless : ∀ node ∈ shared ++ own, isReference node = true → node.fields.get? "name" = none

section Keys

variable {r : Registry} {node n m x : Node} {name location : String} {shared own : List Node}

lemma isReference_eq (refs : Refs) : isReference node = (node.reference? refs).isSome := by
  unfold isReference Node.reference?
  rcases node with ⟨k, a⟩ | ⟨k, xs⟩ | ⟨k, fs⟩
  · rfl
  · rfl
  · rw [Node.get?, Node.get?]
    cases Table.get? fs "$ref" with
    | none => rfl
    | some v =>
      rcases v with ⟨j, _ | b | y | text | y⟩ | ⟨j, ys⟩ | ⟨j, gs⟩ <;> rfl

lemma target?_of_not_isReference (h : isReference node = false) : target? r node = some node := by
  rw [isReference_eq r.refs, Option.isSome_eq_false_iff, Option.isNone_iff_eq_none] at h
  unfold target?
  rw [h]

lemma read_eq_str_iff {text : String} : node.read [] = .str text ↔ node.str? = some text := by
  rcases node with ⟨k, _ | b | y | t | y⟩ | ⟨k, xs⟩ | ⟨k, fs⟩ <;> simp [Node.read, Node.str?, Atom.toJson]

/-- Parameters with names are compared by name and location. -/
lemma parameterKey_eq_named : parameterKey node = .ok (.named (.str name) (.str location)) ↔
    name? node = some name ∧ location? node = some location := by
  unfold parameterKey name? location?
  cases node.fields.get? "name" with
  | none => simp
  | some a =>
    rw [Option.bind_some]
    dsimp only
    rw [← read_eq_str_iff]
    cases node.fields.get? "in" with
    | none => cases a.read [] <;> simp
    | some b =>
      rw [Option.bind_some, ← read_eq_str_iff, Option.map_some, Option.getD_some]
      cases a.read [] <;> cases b.read [] <;> simp

lemma parameterKey_eq_itself (h : node.fields.get? "name" = none) : parameterKey node = .ok (.itself node) := by
  unfold parameterKey
  rw [h]

lemma str_same_iff {v : Json} {text : String} : (Json.str text).same v = true ↔ v = .str text := by
  cases v <;> simp [Json.same, eq_comm]

/-- A parameter that is written out is overridden by those with its name and location. -/
lemma overrides_named (h : parameterKey n = .ok (.named (.str name) (.str location))) :
    overrides m n = true ↔ name? m = some name ∧ location? m = some location := by
  rw [← parameterKey_eq_named]
  unfold overrides
  rw [h]
  cases parameterKey m with
  | error f => simp
  | ok k =>
    cases k with
    | itself y => simp [ParameterKey.equals]
    | named a b => simp [ParameterKey.equals, str_same_iff]

/-- A reference is overridden by itself only. -/
lemma overrides_itself (h : parameterKey n = .ok (.itself n)) :
    overrides m n = true ↔ parameterKey m = .ok (.itself m) ∧ n.isSame m = true := by
  have hself : ∀ {y}, parameterKey m = .ok (.itself y) → y = m := by
    intro y hy
    unfold parameterKey at hy
    split at hy
    · cases hy
      rfl
    · dsimp only at hy
      split at hy <;> cases hy
  unfold overrides
  rw [h]
  cases hm : parameterKey m with
  | error f => simp
  | ok k =>
    cases k with
    | named a b => simp [ParameterKey.equals]
    | itself y =>
      obtain rfl := hself hm
      simp [ParameterKey.equals]

lemma isObject_of_name? (h : name? node = some name) : node.isObject = true := by
  rcases node with ⟨k, a⟩ | ⟨k, xs⟩ | ⟨k, fs⟩
  · cases h
  · cases h
  · rfl

lemma isObject_of_isReference (h : isReference node = true) : node.isObject = true := by
  rcases node with ⟨k, a⟩ | ⟨k, xs⟩ | ⟨k, fs⟩
  · cases h
  · cases h
  · rfl

/-- What is written out stands for itself, if it is a parameter with the name and the location. -/
lemma parameterAt_of_written (h : isReference m = false) :
    (parameterAt r name location m).isSome = true ↔ name? m = some name ∧ location? m = some location := by
  rw [Option.isSome_iff_exists]
  constructor
  · rintro ⟨y, hy⟩
    obtain ⟨htarget, -, hnamed⟩ := parameterAt_eq_some.1 hy
    obtain rfl := Option.some.inj ((target?_of_not_isReference h).symm.trans htarget)
    exact hnamed
  · rintro ⟨hname, hlocation⟩
    exact ⟨m, parameterAt_eq_some.2 ⟨target?_of_not_isReference h, isObject_of_name? hname, hname, hlocation⟩⟩

lemma any_overrides_of_written (hcomparable : AreComparable shared own) (hn : n ∈ shared) (href : isReference n = false)
    (hname : name? n = some name) (hlocation : location? n = some location) :
    own.any (overrides · n) = true ↔ IsOverridden r own name location n := by
  have hkey := parameterKey_eq_named.2 ⟨hname, hlocation⟩
  rw [List.any_eq_true]
  constructor
  · rintro ⟨m, hm, hover⟩
    have hnamed := (overrides_named hkey).1 hover
    -- what has the key has a name, so it is no reference
    have href' : isReference m = false := by
      by_contra hne
      have hnone := hcomparable.nameless m (List.mem_append_right _ hm) (by simpa using hne)
      simp [name?, hnone] at hnamed
    exact ⟨m, hm, (parameterAt_of_written href').2 hnamed, Or.inr ⟨href, href'⟩⟩
  · rintro ⟨m, hm, hfound, hsame | ⟨-, href'⟩⟩
    · obtain rfl := hcomparable.same n hn m hm (isObject_of_name? hname) hsame
      exact ⟨n, hm, (overrides_named hkey).2 ⟨hname, hlocation⟩⟩
    · exact ⟨m, hm, (overrides_named hkey).2 ((parameterAt_of_written href').1 hfound)⟩

lemma any_overrides_of_reference (hcomparable : AreComparable shared own) (hn : n ∈ shared) (href : isReference n = true)
    (hfound : (parameterAt r name location n).isSome = true) :
    own.any (overrides · n) = true ↔ IsOverridden r own name location n := by
  have hkey := parameterKey_eq_itself (hcomparable.nameless n (List.mem_append_left _ hn) href)
  have hobj := isObject_of_isReference href
  rw [List.any_eq_true]
  constructor
  · rintro ⟨m, hm, hover⟩
    obtain ⟨-, hsame⟩ := (overrides_itself hkey).1 hover
    obtain rfl := hcomparable.same n hn m hm hobj hsame
    exact ⟨n, hm, hfound, Or.inl hsame⟩
  · rintro ⟨m, hm, -, hsame | ⟨hwritten, -⟩⟩
    · obtain rfl := hcomparable.same n hn m hm hobj hsame
      exact ⟨n, hm, (overrides_itself hkey).2 ⟨hkey, hsame⟩⟩
    · rw [href] at hwritten
      cases hwritten

/-- **Overriding.** Which parameters of a path are dropped is told by what they stand for. -/
theorem any_overrides_iff (hcomparable : AreComparable shared own) (hn : n ∈ shared)
    (hfound : (parameterAt r name location n).isSome = true) :
    own.any (overrides · n) = true ↔ IsOverridden r own name location n := by
  cases href : isReference n with
  | false =>
    obtain ⟨hname, hlocation⟩ := (parameterAt_of_written href).1 hfound
    exact any_overrides_of_written hcomparable hn href hname hlocation
  | true => exact any_overrides_of_reference hcomparable hn href hfound

/-- If the operation has no parameter of the name and location, none of the path is overridden. -/
lemma not_isOverridden (hnone : parametersAt r name location own = []) (n : Node) : ¬ IsOverridden r own name location n := by
  rintro ⟨m, hm, hfound, -⟩
  rw [List.filterMap_eq_nil_iff.1 hnone m hm] at hfound
  cases hfound

/-- If the operation has no parameter of the name and location, those of the path are kept. -/
lemma parametersAt_kept (hcomparable : AreComparable shared own) (hnone : parametersAt r name location own = []) :
    parametersAt r name location (kept shared own) = parametersAt r name location shared := by
  unfold parametersAt kept
  rw [List.filterMap_filter]
  refine List.filterMap_congr fun n hn => ?_
  cases hfound : parameterAt r name location n with
  | none => simp
  | some x =>
    have hkept : ¬ own.any (overrides · n) = true := by
      rw [any_overrides_iff hcomparable hn (by rw [hfound]; rfl)]
      exact not_isOverridden hnone n
    simp [hkept]

/-- **The last parameter decides**: the later ones are those of the operation. -/
lemma getLast?_parametersAt (hcomparable : AreComparable shared own) (r : Registry) (name location : String) :
    (parametersAt r name location (kept shared own ++ own)).getLast? = deciding r shared own name location := by
  unfold deciding
  rw [parametersAt, List.filterMap_append, List.getLast?_append]
  by_cases hnone : parametersAt r name location own = []
  · have hkept := parametersAt_kept hcomparable hnone
    unfold parametersAt at hkept ⊢
    rw [hkept]
  · obtain ⟨x, hx⟩ := Option.ne_none_iff_exists'.1 (mt List.getLast?_eq_none_iff.1 hnone)
    unfold parametersAt at hx ⊢
    rw [hx, Option.some_or, Option.some_or]

end Keys

/-! ### Groups -/

/-- The property of a schema that has a name. -/
def propertyIn (s : Schema Node) (name : String) : Option Node :=
  (s.content.fields.get? "properties").bind (·.fields.get? name)

/-- The required names of a schema. -/
def requiredIn (s : Schema Node) : List String :=
  (((s.content.fields.get? "required").map (·.items)).getD []).filterMap (·.str?)

/-- The parameters of an operation, as they stand in a registry. -/
def standing (r : Registry) (operation : Node) : List Node := ((listed operation).filterMap (target? r)).filter (·.isObject)

/-- The groups of an operation, with the registries in which synthesis comes to them. -/
def met (s : Schema Node) (r : Registry) : List (String × Registry) :=
  groupsMet s (standing r s.content) locations (final (Action.tell (.synthesizing s.address.text)) r)

section Groups

variable {s : Schema Node} {r : Registry} {group : List Node} {g : Group} {name : String}

lemma IsGroup.propertyIn_eq_some (hg : IsGroup s r group g) {v : Node} (hv : propertyIn g.schema name = some v) :
    ∃ x source, (group.filter fun p => decide (name? p = some name)).getLast? = some x ∧ IsTyped r x v source := by
  obtain ⟨mark, inner, names, properties, hcontent, -, htyped⟩ := hg.content
  have hproperties : properties.get? name = some v := by
    rw [propertyIn, hcontent] at hv
    exact hv
  obtain ⟨front, p, back, source, rfl, hname, hback, hsource⟩ := htyped name v hproperties
  have hnone : back.filter (fun p => decide (name? p = some name)) = [] :=
    List.filter_eq_nil_iff.2 fun q hq => by simpa using hback q hq
  refine ⟨p, source, ?_, hsource⟩
  rw [List.filter_append, List.filter_cons, if_pos (by simpa using hname), hnone, List.getLast?_concat]

lemma IsGroup.propertyIn_isSome (hg : IsGroup s r group g) :
    (propertyIn g.schema name).isSome = true ↔ (group.filter fun p => decide (name? p = some name)) ≠ [] := by
  obtain ⟨mark, inner, names, properties, hcontent, hkeys, -⟩ := hg.content
  have hproperties : propertyIn g.schema name = properties.get? name := by
    rw [propertyIn, hcontent]
    rfl
  have hmem : (properties.get? name).isSome = true ↔ name ∈ properties.keys := Table.has_iff_mem_keys
  rw [hproperties, hmem, hkeys, List.mem_eraseDups, List.mem_filterMap, ne_eq, List.filter_eq_nil_iff]
  simp

lemma IsGroup.mem_requiredIn (hg : IsGroup s r group g) : name ∈ requiredIn g.schema ↔
    ∃ p ∈ group.filter fun p => decide (name? p = some name), isGiven p "required" = true := by
  obtain ⟨mark, inner, names, properties, hcontent, -, -⟩ := hg.content
  have hrequired : requiredIn g.schema = g.required := by
    rw [requiredIn, hcontent]
    show (g.required.map fun n => Node.atom names (.str n)).filterMap (·.str?) = g.required
    rw [List.filterMap_map]
    exact List.filterMap_some
  rw [hrequired, hg.required]
  simp [and_assoc]

/-- The groups are what synthesis gives first. -/
lemma synthesize_groups (s : Schema Node) (hoperation : s.operation = true) (r : Registry) :
    Yields (synthesize s) r
      (fun made _ => ∃ groups rest, made = groups.map (·.schema) ++ rest ∧
        List.Forall₂ (StandsFor r) (listed s.content) ((listed s.content).filterMap (target? r)) ∧
        AreGroups s (standing r s.content) locations (final (Action.tell (.synthesizing s.address.text)) r) groups)
      fun _ _ => True := by
  rw [synthesize_eq s hoperation]
  refine Yields.bind ((opening_spec s r).mono ?_ fun _ _ h => h)
  rintro _ r₁ ⟨raw, groups, hraw, rfl, hgroups⟩
  obtain rfl := filterMap_target? hraw
  refine Yields.skip fun requested _ => Yields.skip fun responses _ => Yields.of_pure ?_
  exact ⟨groups, requested ++ responses, by rw [← List.append_assoc]; rfl, hraw, hgroups⟩

end Groups

section Collected

variable {s : Schema Node} {r : Registry} {groups : List Group} {g : Group} {name location : String}

variable (hraw : List.Forall₂ (StandsFor r) (listed s.content) ((listed s.content).filterMap (target? r)))
  (hgroups : AreGroups s (standing r s.content) locations (final (Action.tell (.synthesizing s.address.text)) r) groups)
include hraw hgroups

/-- A group is collected from the parameters of its location. -/
lemma exists_isGroup (hg : g ∈ groups) : ∃ r₁ group, (g.location, r₁) ∈ met s r ∧ IsGroup s r₁ group g ∧
    ∀ name, (group.filter fun p => decide (name? p = some name)) = parametersAt r name g.location (listed s.content) := by
  obtain ⟨⟨location, r₁⟩, hmet, hlocation, hgroup⟩ := Document.exists_of_forall₂ hgroups hg
  dsimp only at hlocation
  subst hlocation
  exact ⟨r₁, _, hmet, hgroup, fun name => (parametersAt_eq hraw name g.location).symm⟩

/-- There is a property where there is a parameter. -/
lemma exists_propertyIn_iff (hlocation : location ∈ locations) :
    (∃ g ∈ groups, g.location = location ∧ (propertyIn g.schema name).isSome = true) ↔
      parametersAt r name location (listed s.content) ≠ [] := by
  constructor
  · rintro ⟨g, hg, rfl, hsome⟩
    obtain ⟨r₁, group, -, hgroup, hfound⟩ := exists_isGroup hraw hgroups hg
    rw [← hfound]
    exact hgroup.propertyIn_isSome.1 hsome
  · intro hne
    have hmem : location ∈ groups.map (·.location) := by
      rw [parametersAt_eq hraw] at hne
      obtain ⟨p, hp⟩ := List.exists_mem_of_ne_nil _ hne
      obtain ⟨hp, hat⟩ := List.mem_filter.1 (List.mem_filter.1 hp).1
      rw [hgroups.map_location]
      exact List.mem_filter.2 ⟨hlocation, List.any_eq_true.2 ⟨p, hp, hat⟩⟩
    obtain ⟨g, hg, rfl⟩ := List.mem_map.1 hmem
    obtain ⟨r₁, group, -, hgroup, hfound⟩ := exists_isGroup hraw hgroups hg
    rw [← hfound] at hne
    exact ⟨g, hg, rfl, hgroup.propertyIn_isSome.2 hne⟩

/-- A property is typed from the last parameter of its name. -/
lemma exists_isTyped (hg : g ∈ groups) {v : Node} (hv : propertyIn g.schema name = some v) :
    ∃ x r₁ source, (parametersAt r name g.location (listed s.content)).getLast? = some x ∧ IsTyped r₁ x v source ∧
      (g.location, r₁) ∈ met s r := by
  obtain ⟨r₁, group, hmet, hgroup, hfound⟩ := exists_isGroup hraw hgroups hg
  obtain ⟨x, source, hx, htyped⟩ := hgroup.propertyIn_eq_some hv
  rw [hfound] at hx
  exact ⟨x, r₁, source, hx, htyped, hmet⟩

/-- A name is required if a parameter of the name is. -/
lemma mem_requiredIn_iff (hg : g ∈ groups) : name ∈ requiredIn g.schema ↔
    ∃ p ∈ parametersAt r name g.location (listed s.content), isGiven p "required" = true := by
  obtain ⟨r₁, group, -, hgroup, hfound⟩ := exists_isGroup hraw hgroups hg
  rw [← hfound]
  exact hgroup.mem_requiredIn

end Collected

/-! ### The law -/

/-- **What the groups of an operation tell** of a name and a location, for the parameters of a path and of the operation. -/
structure AreDecided (s : Schema Node) (r : Registry) (groups : List Group) (shared own : List Node)
    (name location : String) : Prop where
  /-- There is a property if there is a parameter that decides, and only then. -/
  present : (∃ g ∈ groups, g.location = location ∧ (propertyIn g.schema name).isSome = true) ↔
    (deciding r shared own name location).isSome = true
  /-- The property is typed from that parameter, as it stands when synthesis comes to the location. -/
  property : ∀ g ∈ groups, g.location = location → ∀ v, propertyIn g.schema name = some v →
    ∃ x r₁ source, deciding r shared own name location = some x ∧ IsTyped r₁ x v source ∧ (location, r₁) ∈ met s r
  /-- A name is required if it is by a parameter of the operation, or by one of the path that is not overridden. -/
  required : ∀ g ∈ groups, g.location = location → (name ∈ requiredIn g.schema ↔
    (∃ p ∈ parametersAt r name location own, isGiven p "required" = true) ∨
      ∃ n ∈ shared, ¬ IsOverridden r own name location n ∧
        ∃ p, parameterAt r name location n = some p ∧ isGiven p "required" = true)
  /-- Where the path and the operation have one parameter each at most, and that of the path is overridden, the parameter that
  decides also decides whether the name is required. -/
  decided : (parametersAt r name location own).length ≤ 1 → (parametersAt r name location shared).length ≤ 1 →
    (parametersAt r name location own ≠ [] → ∀ n ∈ shared, (parameterAt r name location n).isSome = true →
      IsOverridden r own name location n) →
    ∀ g ∈ groups, g.location = location → ∀ x, deciding r shared own name location = some x →
      (name ∈ requiredIn g.schema ↔ isGiven x "required" = true)

section Law

variable {s : Schema Node} {r : Registry} {groups : List Group} {shared own : List Node} {name location : String}

lemma mem_parametersAt {nodes : List Node} {p : Node} :
    p ∈ parametersAt r name location nodes ↔ ∃ n ∈ nodes, parameterAt r name location n = some p := List.mem_filterMap

lemma mem_parametersAt_append (hcomparable : AreComparable shared own) {p : Node} :
    p ∈ parametersAt r name location (kept shared own ++ own) ↔ p ∈ parametersAt r name location own ∨
      ∃ n ∈ shared, ¬ IsOverridden r own name location n ∧ parameterAt r name location n = some p := by
  rw [parametersAt, List.filterMap_append, List.mem_append, or_comm]
  refine or_congr Iff.rfl ?_
  rw [List.mem_filterMap]
  constructor
  · rintro ⟨n, hn, hp⟩
    obtain ⟨hn, hkept⟩ := List.mem_filter.1 hn
    refine ⟨n, hn, ?_, hp⟩
    rw [← any_overrides_iff hcomparable hn (by rw [hp]; rfl)]
    simpa using hkept
  · rintro ⟨n, hn, hnot, hp⟩
    rw [← any_overrides_iff hcomparable hn (by rw [hp]; rfl)] at hnot
    exact ⟨n, List.mem_filter.2 ⟨hn, by simpa using hnot⟩, hp⟩

/-- One parameter of the operation, or else one of the path, decides alone. -/
lemma exists_required_iff {x : Node} (hown : (parametersAt r name location own).length ≤ 1)
    (hshared : (parametersAt r name location shared).length ≤ 1)
    (hoverridden : parametersAt r name location own ≠ [] → ∀ n ∈ shared, (parameterAt r name location n).isSome = true →
      IsOverridden r own name location n) (hx : deciding r shared own name location = some x) :
    ((∃ p ∈ parametersAt r name location own, isGiven p "required" = true) ∨
      ∃ n ∈ shared, ¬ IsOverridden r own name location n ∧
        ∃ p, parameterAt r name location n = some p ∧ isGiven p "required" = true) ↔ isGiven x "required" = true := by
  unfold deciding at hx
  rcases hy : parametersAt r name location own with _ | ⟨y, _ | ⟨y', ys⟩⟩
  · rw [hy, List.getLast?_nil, Option.none_or] at hx
    rcases hz : parametersAt r name location shared with _ | ⟨z, _ | ⟨z', zs⟩⟩
    · rw [hz] at hx
      cases hx
    · rw [hz] at hx
      cases hx
      constructor
      · rintro (⟨p, hp, -⟩ | ⟨n, hn, -, p, hp, hgiven⟩)
        · cases hp
        · have hmem := mem_parametersAt.2 ⟨n, hn, hp⟩
          rw [hz, List.mem_singleton] at hmem
          rwa [← hmem]
      · intro hgiven
        obtain ⟨n, hn, hp⟩ := mem_parametersAt.1 (hz ▸ List.mem_singleton_self z)
        exact Or.inr ⟨n, hn, not_isOverridden hy n, z, hp, hgiven⟩
    · simp [hz] at hshared
  · rw [hy] at hx hoverridden
    cases hx
    constructor
    · rintro (⟨p, hp, hgiven⟩ | ⟨n, hn, hnot, p, hp, -⟩)
      · rwa [← List.mem_singleton.1 hp]
      · exact absurd (hoverridden (List.cons_ne_nil _ _) n hn (by rw [hp]; rfl)) hnot
    · exact fun hgiven => Or.inl ⟨y, List.mem_singleton_self y, hgiven⟩
  · simp [hy] at hown

lemma exists_required_append (hcomparable : AreComparable shared own) :
    (∃ p ∈ parametersAt r name location (kept shared own ++ own), isGiven p "required" = true) ↔
      (∃ p ∈ parametersAt r name location own, isGiven p "required" = true) ∨
        ∃ n ∈ shared, ¬ IsOverridden r own name location n ∧
          ∃ p, parameterAt r name location n = some p ∧ isGiven p "required" = true := by
  simp only [mem_parametersAt_append hcomparable]
  constructor
  · rintro ⟨p, hp | ⟨n, hn, hnot, hp⟩, hgiven⟩
    · exact Or.inl ⟨p, hp, hgiven⟩
    · exact Or.inr ⟨n, hn, hnot, p, hp, hgiven⟩
  · rintro (⟨p, hp, hgiven⟩ | ⟨n, hn, hnot, p, hp, hgiven⟩)
    · exact ⟨p, Or.inl hp, hgiven⟩
    · exact ⟨p, Or.inr ⟨n, hn, hnot, hp⟩, hgiven⟩

/-- **Names and locations are decided.** -/
lemma areDecided (hcomparable : AreComparable shared own) (hlisted : listed s.content = kept shared own ++ own)
    (hraw : List.Forall₂ (StandsFor r) (listed s.content) ((listed s.content).filterMap (target? r)))
    (hgroups : AreGroups s (standing r s.content) locations (final (Action.tell (.synthesizing s.address.text)) r) groups)
    (hlocation : location ∈ locations) : AreDecided s r groups shared own name location := by
  have hlast : (parametersAt r name location (listed s.content)).getLast? = deciding r shared own name location := by
    rw [hlisted]
    exact getLast?_parametersAt hcomparable r name location
  have hrequired : ∀ g ∈ groups, g.location = location → (name ∈ requiredIn g.schema ↔
      (∃ p ∈ parametersAt r name location own, isGiven p "required" = true) ∨
        ∃ n ∈ shared, ¬ IsOverridden r own name location n ∧
          ∃ p, parameterAt r name location n = some p ∧ isGiven p "required" = true) := by
    rintro g hg rfl
    rw [mem_requiredIn_iff hraw hgroups hg, hlisted]
    exact exists_required_append hcomparable
  refine ⟨?_, ?_, hrequired, fun hown hshared hoverridden g hg hat x hx => ?_⟩
  · rw [← hlast, List.getLast?_isSome]
    exact exists_propertyIn_iff hraw hgroups hlocation
  · rintro g hg rfl v hv
    rw [← hlast]
    exact exists_isTyped hraw hgroups hg hv
  · rw [hrequired g hg hat]
    exact exists_required_iff hown hshared hoverridden hx

end Law

/-- **Parameters of paths and operations.** Take an operation that is found in a document of version 3, and what it is replaced by
in any registry. It is an operation of a path item. If no reference among the parameters of both has a name beside it, then for
each name and location the parameter of the operation decides what the property is, or that of the path if the operation has
none. Whether the name is required is decided by the same parameter, unless one of the path is not overridden: that is required
as well. -/
theorem synthesize_overrides (document : Node) (hdocument : Document.IsRegular document) (url : Option String)
    (d : Schema Node) (hd : Document.toSchema document url = .ok d) (hv : d.openapi = some .v3) (refs : Refs) (next : ℕ)
    (s : Schema Node) (hs : s ∈ (Discovery.walk d refs next).operations) (r r' : Registry) (made : List (Schema Node))
    (h : synthesize s r = .ok made r') :
    ∃ item op groups rest, item ∈ (Document.pathsOf d.content).values ∧ op ∈ Document.operationsIn item ∧
      Discovery.IsCopy op s.content ∧ made = groups.map (·.schema) ++ rest ∧
      (∀ g ∈ groups, g.schema.address = addressOf s (.group g.location)) ∧
      ((∀ node ∈ listed item ++ listed op, isReference node = true → node.fields.get? "name" = none) →
        ∀ name, ∀ location ∈ locations, AreDecided s r groups (listed item) (listed op) name location) := by
  obtain ⟨hoperation, refs', item, op, hitem, hop, hcopied⟩ := Discovery.copied_of_walk hv hs
  obtain ⟨groups, rest, hmade, hraw, hgroups⟩ := (synthesize_groups s hoperation r).good_of_ok h
  obtain ⟨hpart, hobj⟩ := Document.parts_of_operationsIn hop
  refine ⟨item, op, groups, rest, hitem, hop, hcopied.isCopy, hmade, fun g hg => ?_, fun hnameless name location hlocation => ?_⟩
  · obtain ⟨r₁, group, -, hgroup, -⟩ := exists_isGroup hraw hgroups hg
    exact hgroup.address
  · obtain ⟨-, ids, hids, hcontent⟩ := Document.toSchema_v3 hd hv
    have hall : ∀ a ∈ Document.partIds document ++ ids, a.key = "$id" := fun a ha =>
      (List.mem_append.1 ha).elim Document.key_of_partIds (hids a)
    have hparts : ∀ x ∈ item.parts, x ∈ (Document.assign (Document.partIds document ++ ids) document).parts := by
      intro x hx
      rw [← hcontent]
      exact Node.parts_trans (Document.parts_of_pathsOf hitem) hx
    have hcomparable : AreComparable (listed item) (listed op) := by
      refine ⟨fun n hn m hm hobject hsame => ?_, hnameless⟩
      exact hdocument.eq_of_isSame hall (hparts n (Document.parts_of_listed hn))
        (hparts m (Node.parts_trans hpart (Document.parts_of_listed hm))) hobject hsame
    exact areDecided hcomparable (hcopied.listed_eq hobj) hraw hgroups hlocation

/-- A document with a path that has two parameters, one of them by reference; its operation overrides the other. -/
def sharedAndOwn : Json :=
  .obj [("openapi", .str "3.0.0"),
    ("paths", .obj [("/x", .obj [
      ("parameters", .arr [.obj [("name", .str "a"), ("in", .str "query"), ("required", .bool true)],
        .obj [("$ref", .str "/shared/t")]]),
      ("get", .obj [("operationId", .str "getX"),
        ("parameters", .arr [.obj [("name", .str "a"), ("in", .str "query"), ("schema", .obj [("type", .str "integer")])]])])])]),
    ("components", .obj [("parameters", .obj [
      ("T", .obj [("$id", .str "/shared/t"), ("name", .str "t"), ("in", .str "header"), ("required", .bool true)])])])]

theorem synthesize_overrides_sharedAndOwn :
    let document := Node.ofJson sharedAndOwn
    let r := Call.leftAll (opened sharedAndOwn) .empty
    Document.IsRegular document ∧ ∃ d s made r', Document.toSchema document none = .ok d ∧ d.openapi = some .v3 ∧
      s ∈ (Discovery.walk d [] document.bound).operations ∧ synthesize s r = .ok made r' ∧
      ∃ item op groups rest, item ∈ (Document.pathsOf d.content).values ∧ op ∈ Document.operationsIn item ∧
        made = groups.map (·.schema) ++ rest ∧ AreDecided s r groups (listed item) (listed op) "a" "query" ∧
        AreDecided s r groups (listed item) (listed op) "t" "header" := by
  intro document r
  have hregular : Document.IsRegular document := Document.isRegular_ofJson (by decide +kernel)
  have hrun : (Document.toSchema document none).toOption.any (fun d => decide (d.openapi = some .v3) &&
      ((Discovery.walk d [] document.bound).operations.any fun s => ends (synthesize s) r fun _ _ => true) &&
      ((Document.pathsOf d.content).values.all fun item => (Document.operationsIn item).all fun op =>
        (listed item ++ listed op).all fun node => !isReference node || (node.fields.get? "name").isNone)) = true := by
    decide +kernel
  cases hd : Document.toSchema document none with
  | error f =>
    rw [hd] at hrun
    cases hrun
  | ok d =>
    rw [hd] at hrun
    simp only [Except.toOption, Option.any_some, Bool.and_eq_true, decide_eq_true_eq, List.any_eq_true, List.all_eq_true] at hrun
    obtain ⟨⟨hv, s, hs, hends⟩, hnames⟩ := hrun
    obtain ⟨made, r', hmade, -⟩ := exists_of_ends hends
    obtain ⟨item, op, groups, rest, hitem, hop, -, hgroups, -, hdecided⟩ :=
      synthesize_overrides document hregular none d hd hv [] document.bound s hs r r' made hmade
    have hnameless : ∀ node ∈ listed item ++ listed op, isReference node = true → node.fields.get? "name" = none := by
      intro node hnode href
      simpa [href] using hnames item hitem op hop node hnode
    exact ⟨hregular, d, s, made, r', rfl, hv, hs, hmade, item, op, groups, rest, hitem, hop, hgroups,
      hdecided hnameless "a" "query" (by decide), hdecided hnameless "t" "header" (by decide)⟩

/-- A document with a path that has a required parameter; its operation has another of that name and location, by reference. -/
def sharedAndReferred : Json :=
  .obj [("openapi", .str "3.0.0"),
    ("paths", .obj [("/x", .obj [
      ("parameters", .arr [.obj [("name", .str "a"), ("in", .str "query"), ("required", .bool true)]]),
      ("get", .obj [("operationId", .str "getX"), ("parameters", .arr [.obj [("$ref", .str "/shared/a")]])])])]),
    ("components", .obj [("parameters", .obj [
      ("A", .obj [("$id", .str "/shared/a"), ("name", .str "a"), ("in", .str "query"),
        ("schema", .obj [("type", .str "integer")])])])])]

/-- **A parameter of the path that still counts.** The operation has a parameter of the same name and location that is not
required. The parameter of the path stays beside it, since it is compared with the reference, and the name is required. -/
theorem required_by_path : ∃ s made r', (Call.leftAll (opened sharedAndReferred) .empty).Stores s ∧ s.operation = true ∧
    synthesize s (Call.leftAll (opened sharedAndReferred) .empty) = .ok made r' ∧
    (listed s.content).map isReference = [false, true] ∧
    (parametersAt (Call.leftAll (opened sharedAndReferred) .empty) "a" "query" (listed s.content)).map (isGiven · "required") =
      [true, false] ∧
    made.map (·.address.text) = ["#/paths/getX/queryParameter", "#/paths/getX/request"] ∧
    made.map requiredIn = [["a"], ["queryParam"]] := by
  have hrun : replaces "#/paths/getX" (fun s made _ =>
      decide ((listed s.content).map isReference = [false, true]) &&
      decide ((parametersAt (Call.leftAll (opened sharedAndReferred) .empty) "a" "query" (listed s.content)).map
        (isGiven · "required") = [true, false]) &&
      decide (made.map (·.address.text) = ["#/paths/getX/queryParameter", "#/paths/getX/request"]) &&
      decide (made.map requiredIn = [["a"], ["queryParam"]])) (Call.leftAll (opened sharedAndReferred) .empty) = true := by
    decide +kernel
  obtain ⟨s, made, r', hs, hoperation, hmade, hp⟩ := exists_of_replaces hrun
  simp only [Bool.and_eq_true, decide_eq_true_eq] at hp
  obtain ⟨⟨⟨hlisted, hgiven⟩, haddresses⟩, hrequired⟩ := hp
  exact ⟨s, made, r', hs, hoperation, hmade, hlisted, hgiven, haddresses, hrequired⟩

end Typings.Operation
