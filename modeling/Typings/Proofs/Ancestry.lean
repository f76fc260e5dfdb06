import Typings.Proofs.Emission

/-!
What declarations do not show. Of the schemas that a schema was taken from, emission sees the base that their addresses
make and nothing else; of a content that is a text it sees that this is no schema; what was told before it does not see.
So all schemas may be replaced by bare ones, without ancestors and with their texts taken out (`emit_bare`), as long as
the base of each is that of its own address (`Schema.IsAnchored`).
-/

namespace Typings

lemma Told.lift_twins {α β : Type} {R : α → β → Prop} {e : Except Failure α} {e' : Except Failure β} (h : Matches R e e') :
    Twins (Told.lift e) (Told.lift e') R := by
  cases h with
  | ok h => exact Twins.of_pure h
  | error f => exact Twins.of_throw f

lemma Told.lift_same {α : Type} (e : Except Failure α) : Twins (Told.lift e) (Told.lift e) Eq := by
  cases e with
  | ok a => exact Twins.of_pure rfl
  | error f => exact Twins.of_throw f

lemma Told.lift_bind {α β : Type} (e : Except Failure α) (f : α → Except Failure β) :
    Told.lift (e >>= f) = Told.lift e >>= fun a => Told.lift (f a) := by
  cases e with
  | ok a => rfl
  | error _ => rfl

namespace Address

lemma base_append (acc : List Char) (front back : List String) :
    base acc (front ++ back) = (base acc front).bind fun b => base b back := by
  induction front generalizing acc with
  | nil => rfl
  | cons p front ih =>
    rw [List.cons_append, base, base]
    split_ifs
    · exact ih acc
    · cases Url.join acc p.toList with
      | ok acc' => exact ih acc'
      | error e => rfl

lemma within_congr {scope scope' : List String} (h : base [] scope = base [] scope') (text : String) :
    within text scope = within text scope' := by
  rw [within, within, h]

end Address

/-! ### Schemas that look alike -/

namespace Schema

variable {κ μ : Type}

/-- Two schemas that give their parts the same addresses. -/
structure Akin (s t : Schema κ) : Prop where
  dialect : s.dialect = t.dialect
  address : s.address = t.address
  base : Address.base [] s.scope = Address.base [] t.scope

/-- Two schemas that differ in what is around them at most. -/
structure Same (s t : Schema κ) : Prop extends Akin s t where
  content : s.content = t.content

lemma Akin.withContent {s t : Schema κ} (h : s.Akin t) (c : μ) : (s.withContent c).Same (t.withContent c) :=
  ⟨⟨h.dialect, h.address, h.base⟩, rfl⟩

/-- Parts of schemas that look alike look alike: the base goes on from the same one. -/
lemma Akin.part {s t : Schema κ} (h : s.Akin t) (tokens : List String) (a : Address) (c : κ) :
    (s.part tokens a c).Same (t.part tokens a c) := by
  refine ⟨⟨h.dialect, rfl, ?_⟩, rfl⟩
  have hscope : ∀ u : Schema κ, (u.part tokens a c).scope = u.scope ++ [a.text] := by
    intro u
    simp [scope, Schema.part]
  rw [hscope, hscope, Address.base_append, Address.base_append, h.base]

lemma Akin.partAddress {s t : Schema κ} (h : s.Akin t) (tokens : List String) (declared : Option String) :
    s.partAddress tokens none declared = t.partAddress tokens none declared := by
  cases declared with
  | none => rw [Schema.partAddress, Schema.partAddress, h.address]
  | some id => exact Address.within_congr h.base id

lemma Same.sub {s t : Schema Json} (h : s.Same t) (pointer : String) : Matches Same (s.sub pointer) (t.sub pointer) := by
  unfold Schema.sub
  rw [← h.content]
  cases Pointer.parse pointer with
  | error f => exact .error f
  | ok tokens =>
    dsimp only [bind, Except.bind]
    cases Pointer.get s.content tokens pointer with
    | error f => exact .error f
    | ok content =>
      dsimp only
      rw [← h.dialect, ← h.partAddress]
      cases s.partAddress tokens none (content.declaredId s.dialect) with
      | error f => exact .error f
      | ok a => exact .ok (h.toAkin.part tokens a content)

/-- A schema whose base is that of its own address. -/
def IsAnchored (s : Schema κ) : Prop := Address.base [] s.scope = Address.base [] [s.address.text]

end Schema

/-- A value without its characters, if it is a text. -/
def Json.hushed : Json → Json
  | .str _ => .str ""
  | v => v

lemma Json.hushed_hushed (v : Json) : v.hushed.hushed = v.hushed := by
  cases v <;> rfl

lemma Json.fields_hushed (v : Json) : v.hushed.fields = v.fields := by
  cases v <;> rfl

/-- A schema without what emission does not see. -/
def Schema.bare (s : Schema Json) : Schema Json := ⟨s.dialect, s.address, s.content.hushed, none, [], false⟩

lemma Schema.IsAnchored.akin {s : Schema Json} (h : s.IsAnchored) : s.Akin s.bare := ⟨rfl, rfl, h⟩

/-! ### Normal forms -/

namespace Normal

/-- The same setting with bare schemas. -/
def Setting.bare (env : Setting) : Setting :=
  { env with lookup := env.lookup.map fun l text => (l text).map Schema.bare }

/-- Whatever is looked up is anchored. -/
def Setting.IsAnchored (env : Setting) : Prop := ∀ l, env.lookup = some l → ∀ text s, l text = .ok s → s.IsAnchored

/-- No text is a schema, whatever its characters. -/
lemma content_hushed (env : Setting) (depth : ℕ) (s : Schema Json) (seen : List String) (v : Json) :
    content env depth s seen v.hushed = content env depth s seen v := by
  cases v with
  | str text =>
    rw [Json.hushed, content, content]
    all_goals rintro _ ⟨⟩
  | _ => rfl

variable {env : Setting} {fs : Fields}

mutual

/-- **Normal forms do not show ancestors.** -/
theorem content_twins (hl : env.IsAnchored) (depth : ℕ) {s t : Schema Json} (h : s.Akin t) (seen : List String) (v : Json) :
    Twins (content env depth s seen v) (content env.bare depth t seen v) Eq := by
  match v with
  | .bool b =>
    rw [content, content]
    exact Twins.of_pure rfl
  | .obj fs =>
    by_cases hm : ∃ members, Table.get? fs "allOf" = some (.arr members)
    · obtain ⟨members, hm⟩ := hm
      rw [content_of_members hm, content_of_members hm]
      refine (mergeAll_twins hl depth h seen (Table.erase fs "allOf") members).bind_eq fun merged => ?_
      exact Told.lift_same _
    · have hm' : ∀ members, Table.get? fs "allOf" ≠ some (.arr members) := fun members hget => hm ⟨members, hget⟩
      rw [content_of_no_members hm', content_of_no_members hm']
      exact Told.lift_same _
  | .null | .num _ | .str _ | .extra _ | .arr _ =>
    rw [content, content, h.address]
    · exact Twins.of_throw _
    all_goals nofun
termination_by (depth, 2 * v.size)
decreasing_by
  have := Json.size_le_of_get? hm
  simp only [Json.size] at this ⊢
  exact Prod.Lex.right _ (by omega)

theorem member_twins (hl : env.IsAnchored) (depth : ℕ) {s t : Schema Json} (h : s.Akin t) (seen : List String) (m : Json) :
    Twins (member env depth s seen m) (member env.bare depth t seen m) Eq := by
  rw [member.eq_def, member.eq_def]
  match reference? m with
  | none => exact content_twins hl depth h seen m
  | some text =>
    dsimp only
    split_ifs
    · exact Twins.of_throw _
    · cases hlookup : env.lookup with
      | none =>
        simp only [Setting.bare, hlookup, Option.map_none]
        exact Twins.of_throw _
      | some l =>
        simp only [Setting.bare, hlookup, Option.map_some]
        match hu : l text, depth with
        | .error f, _ => exact Twins.of_throw f
        | .ok u, 0 => exact Twins.of_throw _
        | .ok u, depth + 1 =>
          -- the bare target is akin to the target, and its content differs in texts at most
          have hakin := (hl l hlookup text u hu).akin
          have htwins := content_twins hl depth hakin (text :: seen) u.content
          rw [← content_hushed env.bare] at htwins
          simp only [Setting.bare, hlookup, Option.map_some] at htwins
          exact htwins
termination_by (depth, 2 * m.size + 1)
decreasing_by
  · exact Prod.Lex.right _ (by omega)
  · exact Prod.Lex.left _ _ (by omega)

theorem mergeAll_twins (hl : env.IsAnchored) (depth : ℕ) {s t : Schema Json} (h : s.Akin t) (seen : List String)
    (done : Fields) (members : List Json) :
    Twins (mergeAll env depth s seen done members) (mergeAll env.bare depth t seen done members) Eq := by
  match members with
  | [] =>
    rw [mergeAll, mergeAll]
    exact Twins.of_pure rfl
  | m :: rest =>
    rw [mergeAll, mergeAll, h.dialect]
    refine (member_twins hl depth h seen m).bind_eq fun fs => ?_
    refine (Twins.forM fun _ _ => Twins.of_modify).bind fun _ _ _ => ?_
    exact mergeAll_twins hl depth h seen _ rest
termination_by (depth, 2 * Json.sizeItems members + 2)
decreasing_by
  · exact Prod.Lex.right _ (by simp only [Json.sizeItems]; omega)
  · have := Json.size_pos m
    exact Prod.Lex.right _ (by simp only [Json.sizeItems]; omega)

end

lemma normalize_twins (hl : env.IsAnchored) {s t : Schema Json} (h : s.Akin t) (hc : s.content.hushed = t.content.hushed) :
    Twins (normalize env s) (normalize env.bare t) Schema.Same := by
  have hcontent := content_twins hl env.depth h [] s.content
  rw [← content_hushed env.bare, hc, content_hushed] at hcontent
  refine hcontent.bind_eq fun fs => ?_
  exact Twins.of_pure (h.withContent fs)

end Normal

/-! ### Names -/

namespace Naming

variable {α β : Type} (f : α → β) (tree : Namespace α)

lemma declares_map : declares (tree.map f) = declares tree := by
  funext path name
  unfold declares
  rw [Namespace.find?_map]
  cases tree.find? path with
  | none => rfl
  | some node =>
    simp only [Option.map_some, Namespace.children_map, Namespace.mapChildren_eq, List.any_map, Function.comp_def]

lemma isShadowed_map : isShadowed (tree.map f) = isShadowed tree := by
  unfold isShadowed
  rw [declares_map]

lemma settle_map (inside names : List String) (shared : ℕ) :
    settle (tree.map f) inside names shared = settle tree inside names shared := by
  induction shared with
  | zero => rfl
  | succ shared ih => rw [settle, settle, isShadowed_map, ih]

/-- What a name means depends on the names in the tree alone. -/
lemma refer_map (inside target : List String) : refer (tree.map f) inside target = refer tree inside target := by
  rw [refer, refer, settle_map, isShadowed_map]

end Naming

/-! ### Types -/

namespace Emission

open Schema (Same)

/-- The same setting with bare schemas. -/
def Setting.bare (env : Setting) : Setting :=
  { env with
    normal := env.normal.bare
    lookup := fun text => (env.lookup text).map Schema.bare
    tree := env.tree.map Schema.bare }

/-- Whatever emission works with is anchored. -/
structure Setting.IsAnchored (env : Setting) : Prop where
  normal : env.normal.IsAnchored
  tree : env.tree.Every Schema.IsAnchored

variable {env : Setting}

lemma partAt_twins (he : env.IsAnchored) {s t : Schema Fields} (h : s.Same t) (pointer : String) :
    Twins (partAt env s pointer) (partAt env.bare t pointer) Same := by
  have hwhole : (s.withContent (Json.obj s.content)).Same (t.withContent (.obj t.content)) := by
    rw [← h.content]
    exact h.toAkin.withContent _
  refine (Told.lift_twins (hwhole.sub pointer)).bind fun a b hab => ?_
  exact Normal.normalize_twins he.normal hab.toAkin (congrArg Json.hushed hab.content)

lemma nameOf_twins (env : Setting) (inside : List String) (a : Address) :
    Twins (nameOf env inside a) (nameOf env.bare inside a) Eq := by
  refine (Told.lift_same a.names).bind_eq fun names => ?_
  have hrefer : Naming.refer env.bare.tree inside names = Naming.refer env.tree inside names :=
    Naming.refer_map Schema.bare env.tree inside names
  rw [hrefer]
  dsimp only
  split_ifs
  · exact Twins.of_throw _
  · exact Twins.of_modify.bind fun _ _ _ => Twins.of_pure rfl
  · exact Twins.of_pure rfl

/-- What is true of types at one depth: they do not show ancestors. -/
structure TypesTwins (env : Setting) (inside : List String) (depth : ℕ) : Prop where
  typeOf : ∀ s t : Schema Fields, s.Same t → Twins (typeOf env inside depth s) (typeOf env.bare inside depth t) Eq
  namedType : ∀ (s t : Schema Fields) (type : Json) (shown : List String), s.Same t →
    Twins (namedType env inside depth s type shown) (namedType env.bare inside depth t type shown) Eq
  partType : ∀ s t : Schema Fields, s.Same t → Twins (partType env inside depth s) (partType env.bare inside depth t) Eq
  arrayType : ∀ s t : Schema Fields, s.Same t → Twins (arrayType env inside depth s) (arrayType env.bare inside depth t) Eq
  members : ∀ s t : Schema Fields, s.Same t → Twins (members env inside depth s) (members env.bare inside depth t) Eq

section Types

variable {inside : List String} {depth : ℕ} {s t : Schema Fields} (he : env.IsAnchored) (h : s.Same t)
  (ih : TypesTwins env inside depth)
include h ih

/-- The type of a part at a pointer. -/
lemma partTypeAt_twins (he : env.IsAnchored) (pointer : String) :
    Twins (do partType env inside depth (← partAt env s pointer))
      (do partType env.bare inside depth (← partAt env.bare t pointer)) Eq :=
  (partAt_twins he h pointer).bind fun a b hab => ih.partType a b hab

include he

lemma typeOf_twins : Twins (typeOf env inside (depth + 1) s) (typeOf env.bare inside (depth + 1) t) Eq := by
  rw [typeOf, typeOf, ← h.content]
  cases hr : (s.content.get? "$ref").bind (·.str?) with
  | some text =>
    have hlookup : Matches (fun u w => w = Schema.bare u) (env.lookup text) (env.bare.lookup text) := by
      dsimp only [Setting.bare]
      cases env.lookup text with
      | ok u => exact .ok rfl
      | error f => exact .error f
    refine (Told.lift_twins hlookup).bind ?_
    rintro u _ rfl
    rw [Schema.bare, Json.fields_hushed]
    exact (nameOf_twins env inside u.address).map _
  | none =>
    dsimp only
    split_ifs
    · exact (Twins.mapM fun pointer _ => partTypeAt_twins h ih he pointer).map _
    · split
      · exact (Told.lift_same _).map _
      · exact (Told.lift_same _).map _
      · split
        · exact Twins.of_pure rfl
        · exact (Twins.mapM fun type _ => ih.namedType s t type [] h).map _
        · exact ih.namedType s t _ _ h

omit he in
lemma namedType_twins (type : Json) (shown : List String) :
    Twins (namedType env inside (depth + 1) s type shown) (namedType env.bare inside (depth + 1) t type shown) Eq := by
  rw [namedType, namedType, ← h.address]
  refine (Told.lift_same _).bind_eq fun name => ?_
  cases name with
  | some name => exact Twins.of_pure rfl
  | none =>
    dsimp only
    split_ifs
    · exact (ih.members s t h).map _
    · exact ih.arrayType s t h

omit he in
lemma partType_twins : Twins (partType env inside (depth + 1) s) (partType env.bare inside (depth + 1) t) Eq := by
  have hreg : env.bare.isRegistered = env.isRegistered := rfl
  rw [partType, partType, hreg, ← h.content, ← h.dialect, ← h.address]
  split_ifs
  · exact (nameOf_twins env inside s.address).map _
  · exact ih.typeOf s t h

lemma arrayType_twins : Twins (arrayType env inside (depth + 1) s) (arrayType env.bare inside (depth + 1) t) Eq := by
  rw [arrayType, arrayType, ← h.content]
  split
  · exact Twins.of_pure rfl
  · split_ifs
    · exact Twins.of_pure rfl
    · refine (Told.lift_same _).bind_eq fun least => ?_
      refine Twins.map (Twins.mapM fun k _ => ?_) _
      exact (Twins.mapM fun pointer _ => partTypeAt_twins h ih he pointer).map _
  · exact (partAt_twins he h _).bind fun a b hab => (ih.typeOf a b hab).map _

lemma members_twins : Twins (members env inside (depth + 1) s) (members env.bare inside (depth + 1) t) Eq := by
  rw [members, members, ← h.content]
  dsimp only
  split
  -- additional properties with a schema come first, the rest is the same in all cases
  on_goal 4 => refine (partAt_twins he h _).bind fun a b hab => (ih.typeOf a b hab).bind_eq fun type => ?_
  all_goals
    refine Twins.map (Twins.mapM fun name _ => ?_) _
    refine (partAt_twins he h _).bind fun a b hab => ?_
    rw [← hab.content]
    exact (Told.lift_same _).bind_eq fun comment => (ih.typeOf a b hab).map _

end Types

/-- **Types do not show ancestors.** -/
theorem typesTwins (he : env.IsAnchored) (inside : List String) (depth : ℕ) : TypesTwins env inside depth := by
  induction depth with
  | zero =>
    refine ⟨?_, ?_, ?_, ?_, ?_⟩
    · intro s t _
      rw [typeOf, typeOf]
      exact Twins.of_throw _
    · intro s t type shown _
      rw [namedType, namedType]
      exact Twins.of_throw _
    · intro s t _
      rw [partType, partType]
      exact Twins.of_throw _
    · intro s t _
      rw [arrayType, arrayType]
      exact Twins.of_throw _
    · intro s t _
      rw [members, members]
      exact Twins.of_throw _
  | succ depth ih =>
    exact ⟨fun s t h => typeOf_twins he h ih, fun s t type shown h => namedType_twins h ih type shown,
      fun s t h => partType_twins h ih, fun s t h => arrayType_twins he h ih, fun s t h => members_twins he h ih⟩

/-! ### Declarations -/

lemma declare_twins (he : env.IsAnchored) (path : List String) {s : Schema Json} (hs : s.IsAnchored) :
    Twins (declare env path s) (declare env.bare path s.bare) Eq := by
  -- a declaration is read from the normal form, which keeps its base and its content
  have types := typesTwins he path.dropLast env.depth
  refine Twins.of_modify.bind fun _ _ _ => ?_
  refine (Normal.normalize_twins he.normal hs.akin s.content.hushed_hushed.symm).bind fun n m hnm => ?_
  rw [← hnm.content]
  refine (Told.lift_same _).bind_eq fun comment => ?_
  dsimp only
  split_ifs
  · exact (types.members n m hnm).map _
  · exact (types.members n m hnm).map _
  · exact (types.arrayType n m hnm).map _
  · exact (types.typeOf n m hnm).map _

mutual

theorem itemsAt_twins (he : env.IsAnchored) (path : List String) : ∀ t : Namespace (Schema Json),
    t.Every Schema.IsAnchored → Twins (itemsAt env path t) (itemsAt env.bare path (t.map Schema.bare)) Eq
  | .node leaf children, h => by
    have inner := itemsOf_twins he path children h.2
    have hempty : (Namespace.mapChildren Schema.bare children).isEmpty = children.isEmpty := by
      rw [Namespace.mapChildren_eq, List.isEmpty_map]
    cases leaf with
    | none =>
      rw [Namespace.map, itemsAt.eq_def, itemsAt.eq_def]
      dsimp only [Option.map_none]
      rw [hempty]
      split_ifs
      · exact Twins.of_pure rfl
      · exact inner.map _
    | some s =>
      rw [Namespace.map, itemsAt.eq_def, itemsAt.eq_def]
      dsimp only [Option.map_some]
      rw [hempty]
      refine (declare_twins he path (h.1 s rfl)).bind_eq fun declaration => ?_
      split_ifs
      · exact Twins.of_pure rfl
      · exact inner.map _

theorem itemsOf_twins (he : env.IsAnchored) (path : List String) : ∀ children : List (String × Namespace (Schema Json)),
    Namespace.EveryIn Schema.IsAnchored children →
    Twins (itemsOf env path children) (itemsOf env.bare path (Namespace.mapChildren Schema.bare children)) Eq
  | [], _ => by
    rw [Namespace.mapChildren, itemsOf, itemsOf]
    exact Twins.of_pure rfl
  | (name, node) :: rest, h => by
    rw [Namespace.mapChildren, itemsOf, itemsOf]
    refine (itemsAt_twins he (path ++ [name]) node h.1).bind_eq fun first => ?_
    exact (itemsOf_twins he path rest h.2).map _

end

/-- **Declarations do not show ancestors**, texts in the place of schemas, and what was told before. -/
theorem emit_bare (he : env.IsAnchored) : Twins (emit env) (emit env.bare) Eq := by
  have hchildren : Namespace.EveryIn Schema.IsAnchored env.tree.children := by
    have htree := he.tree
    cases ht : env.tree with
    | node leaf children =>
      rw [ht] at htree
      exact htree.2
  have hbare : env.bare.tree.children = Namespace.mapChildren Schema.bare env.tree.children :=
    Namespace.children_map Schema.bare env.tree
  unfold emit
  rw [hbare]
  exact itemsOf_twins he [] env.tree.children hchildren

end Emission

end Typings
