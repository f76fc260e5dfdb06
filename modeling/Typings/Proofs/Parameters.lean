import Typings.Proofs.Parts

/-!
The parameters of operations. Parameters may be references to parameters, and so may the schemas that they name; what such a
node stands for is found in the registry (`StandsFor`). The parameters of a location make one schema, with a property for
each name. Main statements:

* `parameters_stand`: the parameters of an operation are what the items of its list stand for;
* `collect_spec`: the properties have the names of the parameters, each name once, and the last parameter of a name decides
  what its property is; the required names are those of which some parameter is required.
-/

namespace Typings.Operation

/-! ### What nodes stand for -/

/-- **What a node stands for** in a registry: the content of its target if it is a reference, else itself. -/
inductive StandsFor (r : Registry) : Node → Node → Prop
  | target {node : Node} {text : String} {s : Schema Node} (href : node.reference? r.refs = some text)
      (hs : r.dereference text = .ok s) : StandsFor r node s.content
  | itself {node : Node} (href : node.reference? r.refs = none) : StandsFor r node node

lemma StandsFor.congr {r r' : Registry} {node x : Node} (h : StandsFor r node x) (hrefs : r'.refs = r.refs)
    (hschemas : r'.schemas = r.schemas) (hreferences : r'.references = r.references) : StandsFor r' node x := by
  have hsame : ∀ text, r'.dereference text = r.dereference text := by
    intro text
    rw [Registry.dereference, Registry.dereference, Registry.lookup?, Registry.lookup?, hschemas, hreferences]
  cases h with
  | target href hs => exact .target (hrefs ▸ href) ((hsame _).trans hs)
  | itself href => exact .itself (hrefs ▸ href)

lemma resolved_standsFor (node : Node) (r : Registry) :
    Yields (resolved node) r (fun x r' => r' = r ∧ StandsFor r node x) fun _ _ => True := by
  refine Yields.bind (Yields.of_get ?_)
  cases href : node.reference? r.refs with
  | none => exact Yields.of_pure ⟨rfl, .itself href⟩
  | some text =>
    refine Yields.bind ?_
    cases hs : r.dereference text with
    | error f => exact Yields.of_throw trivial
    | ok s => exact Yields.of_pure (Yields.of_pure ⟨rfl, .target href hs⟩)

lemma mapM_standsFor (nodes : List Node) (r : Registry) :
    Yields (nodes.mapM resolved) r (fun xs r' => r' = r ∧ List.Forall₂ (StandsFor r) nodes xs) fun _ _ => True := by
  induction nodes with
  | nil => exact Yields.of_pure ⟨rfl, .nil⟩
  | cons node nodes ih =>
    rw [List.mapM_cons]
    refine Yields.bind ((resolved_standsFor node r).mono ?_ fun _ _ h => h)
    rintro x _ ⟨rfl, hx⟩
    refine Yields.bind (ih.mono ?_ fun _ _ h => h)
    rintro xs _ ⟨rfl, hxs⟩
    exact Yields.of_pure ⟨rfl, .cons hx hxs⟩

/-- The items of the list of parameters. -/
def listed (operation : Node) : List Node := ((operation.fields.get? "parameters").map (·.items)).getD []

/-- **The parameters of an operation** are the objects among what its list stands for. -/
lemma parameters_stand (operation : Node) (r : Registry) :
    Yields (parameters operation) r
      (fun all r' => r' = r ∧ ∃ raw, List.Forall₂ (StandsFor r) (listed operation) raw ∧ all = raw.filter (·.isObject))
      fun _ _ => True := by
  unfold parameters listed
  rcases operation.fields.get? "parameters" with _ | ⟨m, _ | b | n | text | x⟩ | ⟨m, xs⟩ | ⟨m, fs⟩
  · exact Yields.of_pure ⟨rfl, [], .nil, rfl⟩
  · exact Yields.of_pure ⟨rfl, [], .nil, rfl⟩
  · dsimp only
    split_ifs
    · exact Yields.of_throw trivial
    · exact Yields.of_pure ⟨rfl, [], .nil, rfl⟩
  · dsimp only
    split_ifs
    · exact Yields.of_pure ⟨rfl, [], .nil, rfl⟩
    · exact Yields.of_throw trivial
  · exact Yields.of_pure ⟨rfl, [], .nil, rfl⟩
  · exact Yields.of_pure ⟨rfl, [], .nil, rfl⟩
  · refine Yields.bind ((mapM_standsFor xs r).mono ?_ fun _ _ h => h)
    rintro raw _ ⟨rfl, hraw⟩
    exact Yields.of_pure ⟨rfl, raw, hraw, rfl⟩
  · exact Yields.of_pure ⟨rfl, [], .nil, rfl⟩

/-! ### The schema of a parameter -/

/-- What the schema of a parameter is made from: a copy of the one that it names, or a schema for texts. -/
def template (refs : Refs) (mark : ℕ) : Node → Node
  | .obj m fs => Node.copy refs mark (.obj m fs)
  | _ => .obj mark [("type", .atom mark (.str "string"))]

/-- A schema that is never an object or an array. -/
def flattened (mark : ℕ) (content : Node) : Node :=
  if (content.fields.get? "type").bind (·.str?) = some "object" ∨ (content.fields.get? "type").bind (·.str?) = some "array"
  then content.set "type" (.atom mark (.str "string")) else content

/-- A schema with the description of its parameter, unless it has one. -/
def described (parameter content : Node) : Node :=
  match parameter.fields.get? "description" with
  | some description =>
    if !content.fields.has "description" && isGiven parameter "description" then content.set "description" description
    else content
  | none => content

/-- The schema of a parameter that names the schema `named`. -/
def typed (refs : Refs) (mark : ℕ) (parameter named : Node) : Node :=
  described parameter (flattened mark (((template refs mark named).erase "$id").erase "id"))

/-- The schema that a parameter names. -/
def namedBy (parameter : Node) : Action Node :=
  match parameter.fields.get? "schema" with
  | some node => resolved node
  | none => pure (.atom 0 .null)

lemma parameterSchema_eq (parameter : Node) : parameterSchema parameter = (do
    let named ← namedBy parameter
    let mark ← Action.freshMark
    let r ← get
    return typed r.refs mark parameter named) := by
  unfold parameterSchema namedBy typed described
  cases parameter.fields.get? "description" with
  | none =>
    cases parameter.fields.get? "schema" with
    | none => rfl
    | some node => rfl
  | some description =>
    have hlast : ∀ (c : Bool) (x y : Node),
        (if c = true then pure x else pure y : Action Node) = pure (if c = true then x else y) := by
      intro c x y
      split_ifs
      · rfl
      · rfl
    cases parameter.fields.get? "schema" with
    | none => exact bind_congr fun _ => bind_congr fun _ => bind_congr fun _ => hlast _ _ _
    | some node => exact bind_congr fun _ => bind_congr fun _ => bind_congr fun _ => hlast _ _ _

section Typed

variable {content : Node}

lemma isObject_template (refs : Refs) (mark : ℕ) (named : Node) : (template refs mark named).isObject = true := by
  cases named <;> rfl

lemma fields_set (h : content.isObject = true) (key : String) (value : Node) :
    (content.set key value).fields = content.fields.set key value ∧ (content.set key value).isObject = true := by
  rcases content with ⟨m, a⟩ | ⟨m, xs⟩ | ⟨m, fs⟩
  · cases h
  · cases h
  · exact ⟨rfl, rfl⟩

lemma get?_erase (h : content.isObject = true) (key key' : String) :
    (content.erase key).fields.get? key' = (if key = key' then none else content.fields.get? key') ∧
      (content.erase key).isObject = true := by
  rcases content with ⟨m, a⟩ | ⟨m, xs⟩ | ⟨m, fs⟩
  · cases h
  · cases h
  · exact ⟨Table.get?_erase fs key key', rfl⟩

/-- Whether a schema is for objects or arrays. -/
def IsNested (type : Option Node) : Prop := type.bind (·.str?) = some "object" ∨ type.bind (·.str?) = some "array"

lemma get?_flattened (mark : ℕ) (h : content.isObject = true) : (flattened mark content).isObject = true ∧
    (∀ key, key ≠ "type" → (flattened mark content).fields.get? key = content.fields.get? key) ∧
    (IsNested (content.fields.get? "type") → (flattened mark content).fields.get? "type" = some (.atom mark (.str "string"))) ∧
    (¬ IsNested (content.fields.get? "type") → (flattened mark content).fields.get? "type" = content.fields.get? "type") := by
  obtain ⟨hfields, hobj⟩ := fields_set h "type" (.atom mark (.str "string"))
  unfold flattened
  split_ifs with htype
  · rw [hfields]
    exact ⟨hobj, fun key hkey => Table.get?_set_of_ne hkey.symm, fun _ => Table.get?_set_self _ _ _,
      fun hnot => absurd htype hnot⟩
  · exact ⟨h, fun _ _ => rfl, fun hnested => absurd hnested htype, fun _ => rfl⟩

/-- The description of a parameter, unless it is empty. -/
def description? (parameter : Node) : Option Node :=
  if isGiven parameter "description" then parameter.fields.get? "description" else none

lemma get?_described (parameter : Node) (h : content.isObject = true) : (described parameter content).isObject = true ∧
    (∀ key, key ≠ "description" → (described parameter content).fields.get? key = content.fields.get? key) ∧
    (described parameter content).fields.get? "description" =
      (content.fields.get? "description").or (description? parameter) := by
  unfold described description?
  cases hd : parameter.fields.get? "description" with
  | none => simp [h]
  | some description =>
    obtain ⟨hfields, hobj⟩ := fields_set h "description" description
    dsimp only
    cases hown : content.fields.get? "description" with
    | none =>
      have hhas : content.fields.has "description" = false := by rw [Table.has, hown]; rfl
      by_cases hgiven : isGiven parameter "description" = true
      · rw [if_pos (by simp [hhas, hgiven]), hfields, if_pos hgiven]
        exact ⟨hobj, fun key hkey => Table.get?_set_of_ne hkey.symm, Table.get?_set_self _ _ _⟩
      · rw [if_neg (by simp [hgiven]), if_neg hgiven, hown]
        exact ⟨h, fun _ _ => rfl, rfl⟩
    | some own =>
      have hhas : content.fields.has "description" = true := by rw [Table.has, hown]; rfl
      rw [if_neg (by simp [hhas]), hown]
      exact ⟨h, fun _ _ => rfl, rfl⟩

end Typed

/-- The members that the schema of a parameter is made from, as they stand in a registry: those of the object that the
parameter names as its schema, or the type of texts if it names none. -/
def IsSource (r : Registry) (parameter : Node) (source : String → Option Node) : Prop :=
  (∃ node named, parameter.fields.get? "schema" = some node ∧ StandsFor r node named ∧ named.isObject = true ∧
      source = named.get? r.refs) ∨
    (∀ node named, parameter.fields.get? "schema" = some node → StandsFor r node named → named.isObject = false) ∧
      ∃ mark, source = Table.get? [("type", .atom mark (.str "string"))]

/-- **A schema that is typed from a parameter**: it has the members of its source, but no id, a text in place of an object or
an array, and the description of the parameter if there is none. -/
structure IsTyped (r : Registry) (parameter schema : Node) (source : String → Option Node) : Prop where
  taken : IsSource r parameter source
  object : schema.isObject = true
  members : ∀ key, key ∉ ["$id", "id", "type", "description"] → schema.fields.get? key = source key
  noId : schema.fields.get? "$id" = none ∧ schema.fields.get? "id" = none
  nested : IsNested (source "type") → (schema.fields.get? "type").bind (·.str?) = some "string"
  plain : ¬ IsNested (source "type") → schema.fields.get? "type" = source "type"
  description : schema.fields.get? "description" = (source "description").or (description? parameter)

lemma StandsFor.unique {r : Registry} {node x y : Node} (hx : StandsFor r node x) (hy : StandsFor r node y) : x = y := by
  cases hx with
  | target href hs =>
    cases hy with
    | target href' hs' =>
      obtain rfl := Option.some.inj (href.symm.trans href')
      rw [Except.ok.inj (hs.symm.trans hs')]
    | itself href' => exact absurd (href.symm.trans href') nofun
  | itself href =>
    cases hy with
    | target href' hs' => exact absurd (href.symm.trans href') nofun
    | itself href' => rfl

/-- The source of a parameter is what its schema is made from. -/
lemma namedBy_source (parameter : Node) (r : Registry) :
    Yields (namedBy parameter) r
      (fun named r' => r' = r ∧ ∀ mark, IsSource r parameter (Table.get? (template r.refs mark named).fields))
      fun _ _ => True := by
  have hplain : ∀ {named : Node}, named.isObject = false → ∀ mark, (template r.refs mark named).fields =
      [("type", .atom mark (.str "string"))] := by
    intro named h mark
    rcases named with ⟨m, a⟩ | ⟨m, xs⟩ | ⟨m, fs⟩
    · rfl
    · rfl
    · cases h
  unfold namedBy
  cases hschema : parameter.fields.get? "schema" with
  | none =>
    refine Yields.of_pure ⟨rfl, fun mark => Or.inr ⟨?_, mark, rfl⟩⟩
    rintro node named hnode
    rw [hschema] at hnode
    cases hnode
  | some node =>
    refine (resolved_standsFor node r).mono ?_ fun _ _ h => h
    rintro named _ ⟨rfl, hnamed⟩
    refine ⟨rfl, fun mark => ?_⟩
    cases hobj : named.isObject with
    | false =>
      refine Or.inr ⟨fun node' named' hnode' hnamed' => ?_, mark, congrArg Table.get? (hplain hobj mark)⟩
      obtain rfl := Option.some.inj (hschema.symm.trans hnode')
      rw [← hnamed.unique hnamed']
      exact hobj
    | true =>
      refine Or.inl ⟨node, named, hschema, hnamed, hobj, funext fun key => ?_⟩
      rcases named with ⟨m, a⟩ | ⟨m, xs⟩ | ⟨m, fs⟩
      · cases hobj
      · cases hobj
      · exact Table.get?_map fs (Node.current _ m) key

lemma isTyped_typed {r : Registry} {parameter named : Node} {mark : ℕ}
    (h : IsSource r parameter (Table.get? (template r.refs mark named).fields)) :
    IsTyped r parameter (typed r.refs mark parameter named) (Table.get? (template r.refs mark named).fields) := by
  have hobj := isObject_template r.refs mark named
  have herased : ∀ key, (((template r.refs mark named).erase "$id").erase "id").fields.get? key =
      if "id" = key then none else if "$id" = key then none else (template r.refs mark named).fields.get? key := by
    intro key
    rw [(get?_erase (get?_erase hobj "$id" key).2 "id" key).1, (get?_erase hobj "$id" key).1]
  have hobj' := (get?_erase (get?_erase hobj "$id" "").2 "id" "").2
  obtain ⟨hflat, hothers, hnested, hplain⟩ := get?_flattened mark hobj'
  obtain ⟨hdescribed, hrest, hdescription⟩ := get?_described parameter hflat
  have htype : (((template r.refs mark named).erase "$id").erase "id").fields.get? "type" =
      (template r.refs mark named).fields.get? "type" := herased "type"
  rw [htype] at hnested hplain
  refine ⟨h, hdescribed, fun key hkey => ?_, ⟨?_, ?_⟩, fun hn => ?_, fun hn => ?_, ?_⟩
  · simp only [List.mem_cons, List.not_mem_nil, or_false, not_or] at hkey
    rw [typed, hrest key hkey.2.2.2, hothers key hkey.2.2.1, herased, if_neg (Ne.symm hkey.2.1), if_neg (Ne.symm hkey.1)]
  · rw [typed, hrest _ (by decide), hothers _ (by decide), herased]
    rfl
  · rw [typed, hrest _ (by decide), hothers _ (by decide), herased]
    rfl
  · rw [typed, hrest _ (by decide), hnested hn]
    rfl
  · rw [typed, hrest _ (by decide), hplain hn]
  · rw [typed, hdescription, hothers _ (by decide), herased]
    rfl

/-- Making the schema of a parameter takes a mark and changes nothing else. -/
lemma parameterSchema_typed (parameter : Node) (r : Registry) :
    Yields (parameterSchema parameter) r
      (fun schema r' => (∃ next, r' = { r with next }) ∧ ∃ source, IsTyped r parameter schema source) fun _ _ => True := by
  rw [parameterSchema_eq]
  refine Yields.bind ((namedBy_source parameter r).mono ?_ fun _ _ h => h)
  rintro named r₁ ⟨rfl, hsource⟩
  refine Yields.bind (Yields.of_modifyGet (Yields.bind (Yields.of_get (Yields.of_pure ⟨⟨r₁.next + 1, rfl⟩,
    Table.get? (template r₁.refs r₁.next named).fields, ?_⟩))))
  exact isTyped_typed (hsource r₁.next)

/-! ### Groups of parameters -/

/-- The name of a parameter. -/
def name? (parameter : Node) : Option String := (parameter.fields.get? "name").bind (·.str?)

/-- **What a group of parameters is collected to**, from properties and required names that are there already. -/
structure IsCollected (r : Registry) (group : List Node) (properties : Table String Node) (required : List String)
    (result : Table String Node × List String) : Prop where
  keys : result.1.keys.eraseDups = (properties.keys ++ group.filterMap name?).eraseDups
  nodup : properties.keys.Nodup → result.1.keys.Nodup
  typed : ∀ name v, result.1.get? name = some v →
    (∃ front p back source, group = front ++ p :: back ∧ name? p = some name ∧ (∀ q ∈ back, name? q ≠ some name) ∧
      IsTyped r p v source) ∨ (∀ q ∈ group, name? q ≠ some name) ∧ properties.get? name = some v
  required_nodup : required.Nodup → result.2.Nodup
  required : ∀ name, name ∈ result.2 ↔ name ∈ required ∨ ∃ p ∈ group, name? p = some name ∧ isGiven p "required" = true

lemma IsTyped.of_next {r : Registry} {next : ℕ} {parameter schema : Node} {source : String → Option Node}
    (h : IsTyped { r with next } parameter schema source) : IsTyped r parameter schema source := by
  refine ⟨?_, h.object, h.members, h.noId, h.nested, h.plain, h.description⟩
  rcases h.taken with ⟨node, named, hnode, hnamed, hobj, hsource⟩ | ⟨hnone, hsource⟩
  · exact Or.inl ⟨node, named, hnode, hnamed.congr rfl rfl rfl, hobj, hsource⟩
  · exact Or.inr ⟨fun node named hnode hnamed => hnone node named hnode (hnamed.congr rfl rfl rfl), hsource⟩

lemma IsCollected.of_next {r : Registry} {next : ℕ} {group : List Node} {properties : Table String Node}
    {required : List String} {result : Table String Node × List String} (h : IsCollected { r with next } group properties required result) :
    IsCollected r group properties required result := by
  refine ⟨h.keys, h.nodup, fun name v hv => (h.typed name v hv).imp_left ?_, h.required_nodup, h.required⟩
  rintro ⟨front, p, back, source, hgroup, hname, hback, htyped⟩
  exact ⟨front, p, back, source, hgroup, hname, hback, htyped.of_next⟩

section Collect

variable {r : Registry} {p : Node} {group : List Node} {properties : Table String Node} {required : List String}
  {result : Table String Node × List String}

lemma isCollected_nil : IsCollected r [] properties required (properties, required) := by
  refine ⟨?_, fun h => h, fun name v hv => Or.inr ⟨fun _ h => absurd h List.not_mem_nil, hv⟩, fun h => h, fun name => ?_⟩
  · rw [List.filterMap_nil, List.append_nil]
  · simp

/-- Parameters without a name do not count. -/
lemma IsCollected.skip (hname : name? p = none) (h : IsCollected r group properties required result) :
    IsCollected r (p :: group) properties required result := by
  have hne : ∀ {name}, name? p ≠ some name := fun h => absurd (hname.symm.trans h) nofun
  refine ⟨?_, h.nodup, fun name v hv => ?_, h.required_nodup, fun name => ?_⟩
  · rw [List.filterMap_cons_none hname]
    exact h.keys
  · rcases h.typed name v hv with ⟨front, q, back, source, rfl, hq⟩ | ⟨hnone, hold⟩
    · exact Or.inl ⟨p :: front, q, back, source, rfl, hq⟩
    · exact Or.inr ⟨List.forall_mem_cons.2 ⟨hne, hnone⟩, hold⟩
  · rw [h.required]
    refine or_congr Iff.rfl ?_
    rw [List.exists_mem_cons_iff, or_iff_right (fun h => hne h.1)]

/-- A parameter takes the place of earlier ones with its name. -/
lemma IsCollected.step {n : String} {v : Node} {source : String → Option Node} (hname : name? p = some n)
    (hv : IsTyped r p v source)
    (h : IsCollected r group (properties.set n v)
      (if isGiven p "required" && !required.contains n then required ++ [n] else required) result) :
    IsCollected r (p :: group) properties required result := by
  have hmore : ∀ name, name ∈ (if isGiven p "required" && !required.contains n then required ++ [n] else required) ↔
      name ∈ required ∨ name? p = some name ∧ isGiven p "required" = true := by
    intro name
    rw [hname, Option.some_inj]
    split_ifs with hadd
    · simp only [Bool.and_eq_true] at hadd
      rw [List.mem_append, List.mem_singleton, eq_comm, and_iff_left hadd.1]
    · refine ⟨Or.inl, ?_⟩
      rintro (hold | ⟨rfl, hgiven⟩)
      · exact hold
      · simpa [hgiven] using hadd
  refine ⟨?_, fun hnodup => h.nodup (Table.nodup_keys_set hnodup n v), fun name w hw => ?_, fun hnodup => h.required_nodup ?_,
    fun name => ?_⟩
  · rw [h.keys, List.filterMap_cons_some hname, Table.eraseDups_append_congr (Table.eraseDups_keys_set properties n v) rfl,
      List.append_assoc]
    rfl
  · rcases h.typed name w hw with ⟨front, q, back, source', rfl, hq⟩ | ⟨hnone, hold⟩
    · exact Or.inl ⟨p :: front, q, back, source', rfl, hq⟩
    · by_cases heq : n = name
      · subst heq
        rw [Table.get?_set_self] at hold
        cases hold
        exact Or.inl ⟨[], p, group, source, rfl, hname, hnone, hv⟩
      · rw [Table.get?_set_of_ne heq] at hold
        exact Or.inr ⟨List.forall_mem_cons.2 ⟨fun h => heq (Option.some.inj (hname.symm.trans h)), hnone⟩, hold⟩
  · split_ifs with hadd
    · simp only [Bool.and_eq_true, Bool.not_eq_true', List.contains_eq_mem, decide_eq_false_iff_not] at hadd
      exact List.nodup_append.2 ⟨hnodup, List.pairwise_singleton _ n, fun a ha b hb => by
        rw [List.mem_singleton.1 hb]
        rintro rfl
        exact hadd.2 ha⟩
    · exact hnodup
  · rw [h.required, hmore, or_assoc, List.exists_mem_cons_iff]

end Collect

/-- **A group of parameters is collected.** -/
lemma collect_spec (group : List Node) (properties : Table String Node) (required : List String) (r : Registry) :
    Yields (collect group properties required) r
      (fun result r' => (∃ next, r' = { r with next }) ∧ IsCollected r group properties required result) fun _ _ => True := by
  induction group generalizing properties required r with
  | nil => exact Yields.of_pure ⟨⟨r.next, rfl⟩, isCollected_nil⟩
  | cons p group ih =>
    have hp : ((p.fields.get? "name").bind (·.str?)) = name? p := rfl
    rw [collect, hp]
    cases hname : name? p with
    | none =>
      refine (ih properties required r).mono ?_ fun _ _ h => h
      rintro result r' ⟨hr', h⟩
      exact ⟨hr', h.skip hname⟩
    | some n =>
      refine Yields.bind ((parameterSchema_typed p r).mono ?_ fun _ _ h => h)
      rintro v _ ⟨⟨next, rfl⟩, source, hv⟩
      refine (ih _ _ _).mono ?_ fun _ _ h => h
      rintro result _ ⟨⟨next', rfl⟩, h⟩
      exact ⟨⟨next', rfl⟩, h.of_next.step hname hv⟩

end Typings.Operation
