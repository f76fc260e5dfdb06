import Mathlib
import Typings.Generator
import Typings.Proofs.Binding
import Typings.Proofs.Placement

/-!
The names under which schemas are declared. A schema that has a place in the namespaces is declared once, under the type
names of the segments of its path, joined by dots (`Emission.emit_declares`). Type names have no dots in them, so the
joined name tells the type names apart but not the segments: two paths have the same name exactly when their segments have
the same type names, one by one. Main statement: `Generator.qualified_names`.
-/

namespace Typings

/-! ### Names -/

/-- The dotted name for a path. -/
def Naming.qualified (path : List String) : String := ".".intercalate (path.map Name.typeName)

mutual

/-- The dotted names that an item declares inside namespaces. -/
def Item.declared (outer : List String) : Item → List String
  | .declare d => [".".intercalate (outer ++ [d.name])]
  | .block name items => Item.declaredAll (outer ++ [name]) items

/-- The dotted names that items declare inside namespaces. -/
def Item.declaredAll (outer : List String) : List Item → List String
  | [] => []
  | i :: rest => Item.declared outer i ++ Item.declaredAll outer rest

end

lemma Item.declaredAll_declare (outer : List String) (d : Declaration) :
    declaredAll outer [.declare d] = [".".intercalate (outer ++ [d.name])] := by
  rw [declaredAll, declared, declaredAll, List.append_nil]

lemma Item.declaredAll_block (outer : List String) (name : String) (items : List Item) :
    declaredAll outer [.block name items] = declaredAll (outer ++ [name]) items := by
  rw [declaredAll, declared, declaredAll, List.append_nil]

lemma Item.declaredAll_append (outer : List String) (items others : List Item) :
    declaredAll outer (items ++ others) = declaredAll outer items ++ declaredAll outer others := by
  induction items with
  | nil => rfl
  | cons i items ih => rw [List.cons_append, declaredAll, ih, declaredAll, List.append_assoc]

namespace Naming

lemma split_qualified {path : List String} (h : path ≠ []) :
    ((qualified path).toList.splitOn '.').map String.ofList = path.map Name.typeName := by
  refine split_intercalate (by simpa using h) fun name hname => ?_
  obtain ⟨segment, -, rfl⟩ := List.mem_map.1 hname
  exact Name.dot_not_mem_typeName segment

/-- A dotted name tells the type names of the segments, and no more. -/
theorem qualified_eq_iff {p q : List String} (hp : p ≠ []) (hq : q ≠ []) :
    qualified p = qualified q ↔ p.map Name.typeName = q.map Name.typeName := by
  constructor
  · intro h
    rw [← split_qualified hp, h, split_qualified hq]
  · intro h
    rw [qualified, h, qualified]

/-- Where the members of each namespace have type names of their own, the type names of a path tell the path. -/
lemma eq_of_typeNames {α : Type} {tree node node' : Namespace α} {p q : List String} (h : IsDistinct tree)
    (hp : tree.find? p = some node) (hq : tree.find? q = some node') (hpq : p.map Name.typeName = q.map Name.typeName) :
    p = q := by
  have hfollow := follow_typeNames h hp
  rw [hpq, follow_typeNames h hq] at hfollow
  exact (Prod.mk.inj (Option.some.inj hfollow)).1.symm

end Naming

/-! ### Places -/

namespace Placement

variable {κ : Type}

/-- Something was declared at a path, and it or something else still is. -/
def IsPlaced (tree : Namespace (Schema κ)) (path : List String) : Prop := ∃ t s, tree = Namespace.insert s path t

lemma IsPlaced.insert {tree : Namespace (Schema κ)} {p : List String} (h : IsPlaced tree p) (s : Schema κ) (q : List String) :
    IsPlaced (tree.insert s q) p := by
  obtain ⟨t, a, rfl⟩ := h
  by_cases hpq : p = q
  · subst hpq
    exact ⟨t, s, Namespace.insert_insert a s p t⟩
  · exact ⟨t.insert s q, a, (Namespace.insert_comm hpq a s t).symm⟩

lemma foldlM_put_isPlaced {schemas : List (Schema κ)} {tree result : Namespace (Schema κ)}
    (h : schemas.foldlM put tree = .ok result) :
    (∀ p, IsPlaced tree p → IsPlaced result p) ∧
      ∀ s ∈ schemas, ∀ p, s.address.names = .ok p → p ≠ [] → IsPlaced result p := by
  induction schemas generalizing tree with
  | nil =>
    cases h
    exact ⟨fun _ hp => hp, fun _ hs => absurd hs List.not_mem_nil⟩
  | cons s schemas ih =>
    rw [List.foldlM_cons] at h
    obtain ⟨tree₁, hput, h⟩ := bind_eq_ok.1 h
    obtain ⟨path, hpath, heq⟩ := bind_eq_ok.1 hput
    obtain rfl := Except.ok.inj heq
    obtain ⟨hkept, hrest⟩ := ih h
    refine ⟨fun p hp => hkept p ?_, fun s' hs' p hp hne => ?_⟩
    · split_ifs
      · exact hp
      · exact hp.insert s path
    · rcases List.mem_cons.1 hs' with rfl | hs'
      · obtain rfl := Except.ok.inj (hpath.symm.trans hp)
        refine hkept path ?_
        rw [if_neg (by simpa using hne)]
        exact ⟨tree, s', rfl⟩
      · exact hrest s' hs' p hp hne

/-- **A schema with names has its place.** -/
theorem isPlaced_of_build {schemas : List (Schema κ)} {tree : Namespace (Schema κ)} {notices notices' : List Notice}
    (h : build schemas notices = .ok tree notices') {s : Schema κ} (hs : s ∈ schemas) {path : List String}
    (hp : s.address.names = .ok path) (hne : path ≠ []) : IsPlaced tree path := by
  have hof := outcome_of_ok h
  rw [outcome_build] at hof
  obtain ⟨tree', hfold, htree⟩ := bind_eq_ok.1 hof
  split_ifs at htree
  cases htree
  exact (foldlM_put_isPlaced hfold).2 s hs path hp hne

end Placement

/-! ### What is declared -/

namespace Emission

lemma declare_name (env : Setting) (path : List String) (s : Schema Json) (notices : List Notice) :
    Yields (declare env path s) notices (fun d _ => d.name = Name.typeName (path.getLastD "")) fun _ _ => True := by
  refine Yields.skip fun _ _ => Yields.skip fun n _ => Yields.skip fun _ _ => ?_
  dsimp only
  split_ifs
  all_goals exact Yields.skip fun _ _ => Yields.of_pure rfl

mutual

theorem itemsAt_declares (env : Setting) (path : List String) (name : String) (notices : List Notice) :
    ∀ t : Namespace (Schema Json), Yields (itemsAt env (path ++ [name]) t) notices
      (fun items _ => Item.declaredAll (path.map Name.typeName) items =
        (Namespace.leafPaths (Namespace.walkFrom (path ++ [name]) t)).map Naming.qualified) fun _ _ => True
  | .node leaf children => by
    have hlast : (path ++ [name]).getLastD "" = name := by simp
    have hmap : (path ++ [name]).map Name.typeName = path.map Name.typeName ++ [Name.typeName name] := List.map_append
    -- what stands at the node itself, and behind it what is inside
    have hrest : ∀ own notices, Item.declaredAll (path.map Name.typeName) own =
          (Namespace.leafPaths [(path ++ [name], .node leaf children)]).map Naming.qualified →
        Yields (if children.isEmpty then pure own else do
          let inner ← itemsOf env (path ++ [name]) children
          return own ++ [.block (Name.typeName name) inner]) notices
        (fun items _ => Item.declaredAll (path.map Name.typeName) items =
          (Namespace.leafPaths (Namespace.walkFrom (path ++ [name]) (.node leaf children))).map Naming.qualified)
        fun _ _ => True := by
      intro own notices hown
      rw [Namespace.leafPaths_walkFrom, List.map_append, ← hown]
      split_ifs with hempty
      · rw [List.isEmpty_iff.1 hempty]
        exact Yields.of_pure (List.append_nil _).symm
      · refine Yields.bind ((itemsOf_declares env (path ++ [name]) notices children).mono (fun inner _ h => ?_) fun _ _ h => h)
        refine Yields.of_pure ?_
        rw [Item.declaredAll_append, Item.declaredAll_block, ← hmap, h]
    rw [itemsAt.eq_def]
    dsimp only
    rw [hlast]
    cases leaf with
    | none => exact Yields.bind (Yields.of_pure (hrest [] notices rfl))
    | some s =>
      refine Yields.bind ((declare_name env _ s notices).mono (fun d notices hd => ?_) fun _ _ h => h)
      refine Yields.bind (Yields.of_pure (hrest [.declare d] notices ?_))
      rw [hlast] at hd
      rw [Item.declaredAll_declare, hd, ← hmap]
      rfl

theorem itemsOf_declares (env : Setting) (path : List String) (notices : List Notice) :
    ∀ children : List (String × Namespace (Schema Json)), Yields (itemsOf env path children) notices
      (fun items _ => Item.declaredAll (path.map Name.typeName) items =
        (Namespace.leafPaths (Namespace.walkChildren path children)).map Naming.qualified) fun _ _ => True
  | [] => by
    rw [itemsOf]
    exact Yields.of_pure rfl
  | (name, node) :: rest => by
    rw [itemsOf, Namespace.walkChildren, Namespace.leafPaths_append, List.map_append]
    refine Yields.bind ((itemsAt_declares env path name notices node).mono (fun first notices hfirst => ?_) fun _ _ h => h)
    refine Yields.bind ((itemsOf_declares env path notices rest).mono (fun others _ hothers => ?_) fun _ _ h => h)
    refine Yields.of_pure ?_
    rw [Item.declaredAll_append, hfirst, hothers]

end

/-- **What is declared**: everything that has a place, once, under the dotted name for its path. -/
theorem emit_declares (env : Setting) {items : List Item} {notices notices' : List Notice}
    (h : emit env notices = .ok items notices') :
    Item.declaredAll [] items =
      (Namespace.leafPaths (Namespace.walkChildren [] env.tree.children)).map Naming.qualified :=
  (itemsOf_declares env [] notices env.tree.children).good_of_ok h

end Emission

namespace Generator

variable {options : Options} {r r' : Registry} {tree : Namespace (Schema Node)}

lemma exists_place (htree : namespaces r = .ok tree r') {s : Schema Node} (hs : s ∈ r.schemas.values)
    (hd : s.isDeclarable = true) {path : List String} (hp : s.address.names = .ok path) (hne : path ≠ []) :
    ∃ node, tree.find? path = some node ∧ node.leaf.isSome = true := by
  have hrun : told (Placement.build (r.schemas.values.filter (·.isDeclarable))) r = .ok tree r' := htree
  unfold told at hrun
  split at hrun
  · next built notices hbuild =>
    cases hrun
    obtain ⟨t, a, rfl⟩ := Placement.isPlaced_of_build hbuild (List.mem_filter.2 ⟨hs, hd⟩) hp hne
    obtain ⟨node, hnode, hleaf⟩ := Namespace.find?_insert a path t
    exact ⟨node, hnode, by rw [hleaf]; rfl⟩
  · cases hrun

lemma exists_namespaces (h : Placement.namespaceOf (r.schemas.values.filter (·.isDeclarable)) = .ok tree) :
    ∃ r', namespaces r = .ok tree r' := by
  have hout := (Placement.outcome_build _ r.notices).trans h
  change ∃ r', told (Placement.build (r.schemas.values.filter (·.isDeclarable))) r = .ok tree r'
  unfold outcome at hout
  split at hout
  · next built notices hrun =>
    cases hout
    exact ⟨_, by rw [told, hrun]⟩
  · cases hout

/-- Reading the schemas of a tree leaves the places. -/
lemma mem_places {path : List String} {node : Namespace (Schema Node)} (hnode : tree.find? path = some node)
    (hleaf : node.leaf.isSome = true) (hne : path ≠ []) :
    path ∈ Namespace.leafPaths (Namespace.walkChildren [] (emissionSetting options r tree).tree.children) := by
  have hmap : (emissionSetting options r tree).tree.find? path = some (node.map (·.read r.refs)) := by
    change (tree.map (·.read r.refs)).find? path = _
    rw [Namespace.find?_map, hnode, Option.map_some]
  refine Namespace.mem_leafPaths hne hmap ?_
  obtain ⟨leaf, children⟩ := node
  rw [Namespace.map, Namespace.leaf, Option.isSome_map]
  exact hleaf

/-- **The names of declarations.** Two declarable schemas of any registry have places in the namespaces, at the paths that
the names of their addresses make. Each place is declared once, under the type names of its path joined by dots. The names
of the two are equal exactly when their paths have the same type names, segment by segment; so they differ for different
paths if the members of each namespace have type names of their own. -/
theorem qualified_names (options : Options) (r r' : Registry) (tree : Namespace (Schema Node))
    (htree : namespaces r = .ok tree r') (s t : Schema Node) (hs : s ∈ r.schemas.values) (ht : t ∈ r.schemas.values)
    (hsd : s.isDeclarable = true) (htd : t.isDeclarable = true) (p q : List String) (hp : s.address.names = .ok p)
    (hq : t.address.names = .ok q) (hpne : p ≠ []) (hqne : q ≠ []) :
    let env := emissionSetting options r tree
    let places := Namespace.leafPaths (Namespace.walkChildren [] env.tree.children)
    p ∈ places ∧ q ∈ places ∧
      (∀ items notices notices', Emission.emit env notices = .ok items notices' →
        Item.declaredAll [] items = places.map Naming.qualified) ∧
      (Naming.qualified p = Naming.qualified q ↔ p.map Name.typeName = q.map Name.typeName) ∧
      (Naming.IsDistinct tree → p ≠ q → Naming.qualified p ≠ Naming.qualified q) := by
  intro env places
  obtain ⟨node, hnode, hleaf⟩ := exists_place htree hs hsd hp hpne
  obtain ⟨node', hnode', hleaf'⟩ := exists_place htree ht htd hq hqne
  have hiff := Naming.qualified_eq_iff hpne hqne
  refine ⟨mem_places hnode hleaf hpne, mem_places hnode' hleaf' hqne, fun _ _ _ h => Emission.emit_declares env h, hiff, ?_⟩
  intro hdistinct hpq hsame
  exact hpq (Naming.eq_of_typeNames hdistinct hnode hnode' (hiff.1 hsame))

/-- A schema for texts. -/
def textAt (address : String) : Schema Node := ⟨.draft07, ⟨address⟩, Node.ofJson (.obj [("type", .str "string")]), none, [], false⟩

/-- A registry with two addresses that are spelled alike, and one that is longer. -/
def spellings : Registry :=
  { Registry.empty with schemas := [("/a-b#", textAt "/a-b#"), ("/a_b#", textAt "/a_b#"), ("/a/b#", textAt "/a/b#")] }

/-- The namespaces for `spellings`. -/
def spelledNames : Namespace (Schema Node) :=
  .node none [("a", .node none [("b", .node (some (textAt "/a/b#")) [])]), ("a-b", .node (some (textAt "/a-b#")) []),
    ("a_b", .node (some (textAt "/a_b#")) [])]

lemma names_textAt : (textAt "/a-b#").address.names = .ok ["a-b"] ∧ (textAt "/a_b#").address.names = .ok ["a_b"] ∧
    (textAt "/a/b#").address.names = .ok ["a", "b"] := by
  have heq : ∀ {x : Except Failure (List String)} {path : List String}, x.toOption = some path → x = .ok path := by
    rintro (f | path') path h
    · cases h
    · exact congrArg Except.ok (Option.some.inj h)
  exact ⟨heq (by decide +kernel), heq (by decide +kernel), heq (by decide +kernel)⟩

lemma namespaces_spellings : ∃ r', namespaces spellings = .ok spelledNames r' := by
  obtain ⟨h₁, h₂, h₃⟩ := names_textAt
  have hfilter : spellings.schemas.values.filter (·.isDeclarable) = [textAt "/a-b#", textAt "/a_b#", textAt "/a/b#"] := by
    cbv
  have hof : Placement.namespaceOf [textAt "/a-b#", textAt "/a_b#", textAt "/a/b#"] = .ok spelledNames := by
    simp only [Placement.namespaceOf, List.foldlM_cons, List.foldlM_nil, Placement.put, h₁, h₂, h₃]
    cbv
  exact exists_namespaces (hfilter ▸ hof)

theorem qualified_names_spellings :
    let env := emissionSetting ⟨none, "", .distinct⟩ spellings spelledNames
    let places := Namespace.leafPaths (Namespace.walkChildren [] env.tree.children)
    (∃ r', namespaces spellings = .ok spelledNames r') ∧ ["a-b"] ∈ places ∧ ["a", "b"] ∈ places ∧
      Naming.qualified ["a-b"] ≠ Naming.qualified ["a", "b"] := by
  intro env places
  obtain ⟨r', htree⟩ := namespaces_spellings
  obtain ⟨h₁, -, h₃⟩ := names_textAt
  obtain ⟨hp, hq, -, hiff, -⟩ := qualified_names ⟨none, "", .distinct⟩ spellings r' spelledNames htree (textAt "/a-b#")
    (textAt "/a/b#") (.head _) (.tail _ (.tail _ (.head _))) (by decide) (by decide) ["a-b"] ["a", "b"] h₁ h₃ (by decide)
    (by decide)
  exact ⟨⟨r', htree⟩, hp, hq, fun h => absurd (hiff.1 h) (by decide +kernel)⟩

/-- **Different paths may have one name**: what stands at `a-b` and at `a_b` is declared as `AB`, twice. -/
theorem qualified_names_collide :
    ∃ s ∈ spellings.schemas.values, ∃ t ∈ spellings.schemas.values, s.isDeclarable = true ∧ t.isDeclarable = true ∧
      s.address.names = .ok ["a-b"] ∧ t.address.names = .ok ["a_b"] ∧
      Naming.qualified ["a-b"] = Naming.qualified ["a_b"] ∧ ∃ r', namespaces spellings = .ok spelledNames r' ∧
      ∃ items notices, Emission.emit (emissionSetting ⟨none, "", .distinct⟩ spellings spelledNames) [] = .ok items notices ∧
        Item.declaredAll [] items = ["A.B", "AB", "AB"] := by
  obtain ⟨r', htree⟩ := namespaces_spellings
  obtain ⟨h₁, h₂, -⟩ := names_textAt
  have hemit : ends (Emission.emit (emissionSetting ⟨none, "", .distinct⟩ spellings spelledNames)) []
      (fun items _ => decide (Item.declaredAll [] items = ["A.B", "AB", "AB"])) = true := by cbv
  obtain ⟨items, notices, hitems, hdeclared⟩ := exists_of_ends hemit
  exact ⟨textAt "/a-b#", .head _, textAt "/a_b#", .tail _ (.head _), by decide, by decide, h₁, h₂, by decide +kernel, r', htree,
    items, notices, hitems, of_decide_eq_true hdeclared⟩

end Generator

end Typings
