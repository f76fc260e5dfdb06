import Mathlib.Data.List.Nodup
import Typings.Emission
import Typings.Proofs.Outcome
import Typings.Proofs.TypeName

/-!
What dotted names denote. The names that declarations use are looked up from the innermost namespace outwards
(`Naming.denotes?`). If the members of each namespace have type names of their own, the name by which one declaration
refers to another denotes just that one: `Emission.nameOf_denotes`. What carries the proof is that the shared names that
are left out lead to the namespace in which the first name that remains is bound (`Naming.refer_binds`).
-/

namespace Typings

/-! ### Looking names up -/

namespace Naming

variable {α : Type}

/-- The member of a namespace that has a type name. -/
def member? (node : Namespace α) (name : String) : Option (String × Namespace α) :=
  node.children.find? fun e => Name.typeName e.1 = name

/-- Where type names lead from a node, member by member: the path and the node. -/
def follow : List String → Namespace α → Option (List String × Namespace α)
  | [], node => some ([], node)
  | name :: rest, node => do
    let (segment, child) ← member? node name
    let (path, target) ← follow rest child
    return (segment :: path, target)

/-- Where type names lead from the namespace at a path. -/
def followFrom (tree : Namespace α) (path names : List String) : Option (List String × Namespace α) := do
  let node ← tree.find? path
  let (rest, target) ← follow names node
  return (path ++ rest, target)

/-- The namespaces around, the innermost first, the outermost level last. -/
def enclosing (inside : List String) : List (List String) := (List.range (inside.length + 1)).reverse.map fun level => inside.take level

/-- Whether the namespace at a path has a member of a type name. -/
def hasMember (tree : Namespace α) (name : String) (path : List String) : Bool :=
  ((tree.find? path).bind (member? · name)).isSome

/-- **What a dotted name denotes** inside namespaces, path and node. The first part is bound in the innermost namespace
around that has a member of this name, the others follow member by member; `globalThis` in front starts at the outermost
level. -/
def denotes? (tree : Namespace α) (inside : List String) (text : String) : Option (List String × Namespace α) :=
  match (text.toList.splitOn '.').map String.ofList with
  | [] => none
  | first :: rest =>
    if first = "globalThis" then followFrom tree [] rest
    else do
      let path ← (enclosing inside).find? (hasMember tree first)
      followFrom tree path (first :: rest)

/-- The members of each namespace have type names of their own. -/
def IsDistinct (tree : Namespace α) : Prop :=
  ∀ path node, tree.find? path = some node → (node.children.map fun e => Name.typeName e.1).Nodup

/-! ### Following -/

lemma find?_of_nodup {β γ : Type} [DecidableEq γ] {f : β → γ} {xs : List β} (hnodup : (xs.map f).Nodup) {x : β}
    (hx : x ∈ xs) : xs.find? (fun y => f y = f x) = some x := by
  induction xs with
  | nil => cases hx
  | cons y ys ih =>
    obtain ⟨hy, hys⟩ := List.nodup_cons.1 hnodup
    rcases List.mem_cons.1 hx with rfl | hx
    · exact List.find?_cons_of_pos (by simp)
    · rw [List.find?_cons_of_neg, ih hys hx]
      intro heq
      exact hy (of_decide_eq_true heq ▸ List.mem_map_of_mem hx)

lemma find?_append (path rest : List String) (tree : Namespace α) :
    tree.find? (path ++ rest) = (tree.find? path).bind (Namespace.find? rest) := by
  induction path generalizing tree with
  | nil => rfl
  | cons name path ih =>
    rw [List.cons_append, Namespace.find?, Namespace.find?]
    cases tree.child? name with
    | none => rfl
    | some child => exact ih child

lemma IsDistinct.child {tree child : Namespace α} {name : String} (h : IsDistinct tree) (hc : tree.child? name = some child) :
    IsDistinct child := by
  intro path node hnode
  refine h (name :: path) node ?_
  rw [Namespace.find?, hc]
  exact hnode

lemma isDistinct_node {leaf : Option α} {children : List (String × Namespace α)}
    (h : (children.map fun e => Name.typeName e.1).Nodup) (hc : ∀ e ∈ children, IsDistinct e.2) :
    IsDistinct (.node leaf children) := by
  intro path node hn
  cases path with
  | nil =>
    cases hn
    exact h
  | cons name path =>
    obtain ⟨child, hchild, hn⟩ := Option.bind_eq_some_iff.1 hn
    obtain ⟨e, he, rfl⟩ := Option.map_eq_some_iff.1 hchild
    exact hc e (List.mem_of_find?_eq_some he) path node hn

/-- Where all type names differ, a child is found by its type name. -/
lemma member?_of_child {node child : Namespace α} {segment : String} (h : IsDistinct node)
    (hc : node.child? segment = some child) : member? node (Name.typeName segment) = some (segment, child) := by
  obtain ⟨⟨name, t⟩, hfind, rfl⟩ := Option.map_eq_some_iff.1 hc
  have hname : name = segment := by simpa using List.find?_some hfind
  subst hname
  have hmem := List.mem_of_find?_eq_some hfind
  have hmember := find?_of_nodup (f := fun e : String × Namespace α => Name.typeName e.1) (h [] node rfl) hmem
  exact hmember

/-- **Type names lead where segments do.** -/
theorem follow_typeNames {node target : Namespace α} {path : List String} (h : IsDistinct node)
    (hp : node.find? path = some target) : follow (path.map Name.typeName) node = some (path, target) := by
  induction path generalizing node with
  | nil =>
    cases hp
    rfl
  | cons segment path ih =>
    obtain ⟨child, hc, hp⟩ := Option.bind_eq_some_iff.1 hp
    rw [List.map_cons, follow, member?_of_child h hc]
    simp only [Option.bind_eq_bind, Option.bind_some, ih (h.child hc) hp]
    rfl

lemma IsDistinct.find {tree node : Namespace α} {path : List String} (h : IsDistinct tree) (hn : tree.find? path = some node) :
    IsDistinct node := by
  intro rest target ht
  refine h (path ++ rest) target ?_
  rw [find?_append, hn]
  exact ht

lemma followFrom_typeNames {tree target : Namespace α} {path rest : List String} (h : IsDistinct tree)
    (ht : tree.find? (path ++ rest) = some target) :
    followFrom tree path (rest.map Name.typeName) = some (path ++ rest, target) := by
  rw [find?_append] at ht
  obtain ⟨node, hn, ht⟩ := Option.bind_eq_some_iff.1 ht
  rw [followFrom, hn]
  simp only [Option.bind_eq_bind, Option.bind_some, follow_typeNames (h.find hn) ht]
  rfl

/-! ### Binding -/

lemma declares_eq (tree : Namespace α) (path : List String) (name : String) :
    declares tree path name = hasMember tree name path := by
  unfold declares hasMember member?
  cases tree.find? path with
  | none => rfl
  | some node =>
    rw [Bool.eq_iff_iff, List.any_eq_true, Option.bind_some, List.find?_isSome]

/-- The first name of what is left of a path is declared where the rest leads. -/
lemma hasMember_of_find {tree target : Namespace α} {path rest : List String} {segment : String} (h : IsDistinct tree)
    (ht : tree.find? (path ++ segment :: rest) = some target) : hasMember tree (Name.typeName segment) path = true := by
  rw [find?_append] at ht
  obtain ⟨node, hn, ht⟩ := Option.bind_eq_some_iff.1 ht
  obtain ⟨child, hc, -⟩ := Option.bind_eq_some_iff.1 ht
  rw [hasMember, hn, Option.bind_some, member?_of_child (h.find hn) hc]
  rfl

lemma find?_range_reverse {p : ℕ → Bool} {n k : ℕ} (hk : k ≤ n) (hp : p k = true)
    (hlater : ∀ level, k < level → level ≤ n → p level = false) : (List.range (n + 1)).reverse.find? p = some k := by
  induction n with
  | zero =>
    obtain rfl := Nat.le_zero.1 hk
    exact List.find?_cons_of_pos hp
  | succ n ih =>
    rw [List.range_succ, List.reverse_append, List.reverse_singleton, List.singleton_append]
    rcases Nat.lt_or_ge k (n + 1) with hlt | hge
    · rw [List.find?_cons_of_neg (by simp [hlater (n + 1) hlt (Nat.le_refl _)])]
      exact ih (Nat.le_of_lt_succ hlt) fun level h h' => hlater level h (Nat.le_succ_of_le h')
    · obtain rfl := Nat.le_antisymm hk hge
      exact List.find?_cons_of_pos hp

/-- A name is bound at a level if it is declared there and nowhere further in. -/
lemma find?_enclosing {tree : Namespace α} {inside : List String} {name : String} {k : ℕ} (hk : k ≤ inside.length)
    (hp : hasMember tree name (inside.take k) = true) (hshadow : isShadowed tree inside name k = false) :
    (enclosing inside).find? (hasMember tree name) = some (inside.take k) := by
  have hlater : ∀ level, k < level → level ≤ inside.length → hasMember tree name (inside.take level) = false := by
    intro level hlow hhigh
    have hall := List.any_eq_false.1 hshadow level (List.mem_range'_1.2 ⟨hlow, by omega⟩)
    rw [declares_eq] at hall
    simpa using hall
  have hfind := find?_range_reverse (p := hasMember tree name ∘ fun level => inside.take level) hk hp hlater
  rw [enclosing, List.find?_map, hfind]
  rfl

/-! ### References -/

lemma sharedNames_spec (inside target : List String) :
    sharedNames inside target ≤ inside.length ∧ (target ≠ [] → sharedNames inside target < target.length) ∧
      inside.take (sharedNames inside target) = target.take (sharedNames inside target) := by
  fun_induction sharedNames inside target with
  | case1 inside b c target ih =>
    obtain ⟨hinside, htarget, htake⟩ := ih
    have hlt := htarget (List.cons_ne_nil c target)
    refine ⟨Nat.succ_le_succ hinside, fun _ => Nat.succ_lt_succ hlt, ?_⟩
    rw [List.take_succ_cons, List.take_succ_cons, htake]
  | case2 a inside b c target hne => exact ⟨Nat.zero_le _, fun _ => Nat.zero_lt_succ _, rfl⟩
  | case3 inside target hnot => exact ⟨Nat.zero_le _, List.length_pos_iff.2, rfl⟩

/-- Names are taken back until the first one that remains is bound right, or none is left to take back. -/
lemma settle_spec (tree : Namespace α) (inside names : List String) (n : ℕ) :
    settle tree inside names n ≤ n ∧ (settle tree inside names n = 0 ∨
      isShadowed tree inside (names.getD (settle tree inside names n) "") (settle tree inside names n) = false) := by
  induction n with
  | zero => exact ⟨Nat.le_refl _, Or.inl rfl⟩
  | succ n ih =>
    rw [settle]
    split_ifs with hshadow
    · exact ⟨Nat.le_succ_of_le ih.1, ih.2⟩
    · exact ⟨Nat.le_refl _, Or.inr (by simpa using hshadow)⟩

/-- **A reference is the end of the path to its target**, and its first name is bound where the part before that leads;
if it is not, the reference is the whole path, from the outermost level. -/
theorem refer_binds {tree node : Namespace α} (h : IsDistinct tree) (inside : List String) {target : List String}
    (hne : target ≠ []) (ht : tree.find? target = some node) :
    ∃ path segment rest, target = path ++ segment :: rest ∧
      (refer tree inside target).parts = (segment :: rest).map Name.typeName ∧
      if (refer tree inside target).isGlobal then path = []
      else (enclosing inside).find? (hasMember tree (Name.typeName segment)) = some path := by
  obtain ⟨hinside, htarget, htake⟩ := sharedNames_spec inside target
  obtain ⟨hle, hsettled⟩ := settle_spec tree inside (target.map Name.typeName) (sharedNames inside target)
  have hglobal : (refer tree inside target).isGlobal =
    (decide (settle tree inside (target.map Name.typeName) (sharedNames inside target) = 0) &&
      isShadowed tree inside ((target.map Name.typeName).headD "") 0) := rfl
  have hparts : (refer tree inside target).parts =
    (target.map Name.typeName).drop (settle tree inside (target.map Name.typeName) (sharedNames inside target)) := rfl
  -- how many names are left out does not matter, only that they are shared and that the next one is settled
  generalize settle tree inside (target.map Name.typeName) (sharedNames inside target) = k at *
  have hk : k < target.length := Nat.lt_of_le_of_lt hle (htarget hne)
  have htake : inside.take k = target.take k := by
    have := congrArg (List.take k) htake
    rwa [List.take_take, List.take_take, Nat.min_eq_left hle] at this
  have hsplit : target = target.take k ++ target[k] :: target.drop (k + 1) := by
    rw [← List.drop_eq_getElem_cons hk, List.take_append_drop]
  refine ⟨target.take k, target[k], target.drop (k + 1), hsplit, ?_, ?_⟩
  · rw [hparts, ← List.map_drop, List.drop_eq_getElem_cons hk]
  · have hname : (target.map Name.typeName).getD k "" = Name.typeName target[k] := by
      simp [List.getD, hk]
    have hmember : hasMember tree (Name.typeName target[k]) (inside.take k) = true := by
      rw [htake]
      exact hasMember_of_find h (hsplit ▸ ht)
    rw [← htake]
    split_ifs with hg
    · rw [hglobal, Bool.and_eq_true, decide_eq_true_eq] at hg
      rw [hg.1, List.take_zero]
    · refine find?_enclosing (Nat.le_trans hle hinside) hmember ?_
      rcases hsettled with rfl | hsettled
      · rw [hglobal, decide_eq_true rfl, Bool.true_and, Bool.not_eq_true] at hg
        rwa [List.headD_eq_getD, hname] at hg
      · rwa [hname] at hsettled

lemma split_intercalate {names : List String} (hne : names ≠ []) (hdots : ∀ name ∈ names, '.' ∉ name.toList) :
    ((".".intercalate names).toList.splitOn '.').map String.ofList = names := by
  have hdot : ".".toList = ['.'] := rfl
  rw [String.toList_intercalate, hdot, List.splitOn_intercalate, List.map_map]
  · have hid : String.ofList ∘ String.toList = id := funext fun _ => String.ofList_toList
    rw [hid, List.map_id]
  · intro cs hcs
    obtain ⟨name, hname, rfl⟩ := List.mem_map.1 hcs
    exact hdots name hname
  · simpa using hne

/-- The parts of a dotted name can be read off its text. -/
lemma Reference.split_text (r : Reference) (hne : r.parts ≠ []) (hdots : ∀ part ∈ r.parts, '.' ∉ part.toList) :
    (r.text.toList.splitOn '.').map String.ofList = if r.isGlobal then "globalThis" :: r.parts else r.parts := by
  unfold Reference.text
  split_ifs with hglobal
  · have htext : "globalThis." ++ ".".intercalate r.parts = ".".intercalate ("globalThis" :: r.parts) := by
      rw [String.intercalate_cons_of_ne_nil hne]
      rfl
    rw [htext]
    refine split_intercalate (List.cons_ne_nil _ _) fun name hname => ?_
    rcases List.mem_cons.1 hname with rfl | hname
    · decide
    · exact hdots name hname
  · rw [String.empty_append]
    exact split_intercalate hne hdots

/-- **A reference denotes its target.** -/
theorem refer_denotes {tree node : Namespace α} (h : IsDistinct tree) (inside : List String) {target : List String}
    (hne : target ≠ []) (ht : tree.find? target = some node) :
    denotes? tree inside (refer tree inside target).text = some (target, node) := by
  obtain ⟨path, segment, rest, rfl, hparts, hbound⟩ := refer_binds h inside hne ht
  have hdots : ∀ part ∈ (refer tree inside (path ++ segment :: rest)).parts, '.' ∉ part.toList := by
    rw [hparts]
    intro part hpart
    obtain ⟨name, -, rfl⟩ := List.mem_map.1 hpart
    exact Name.dot_not_mem_typeName name
  have hfollow := followFrom_typeNames h ht
  unfold denotes?
  rw [Reference.split_text _ (by simp [hparts]) hdots, hparts]
  split_ifs at hbound ⊢ with hglobal
  · subst hbound
    exact hfollow
  · rw [List.map_cons]
    dsimp only
    rw [if_neg (Name.typeName_ne_globalThis segment), hbound]
    exact hfollow

end Naming

/-- **Names denote their targets.** If the members of each namespace have type names of their own, a declaration at any path
refers to a target in the tree by a name that, looked up from the namespaces around the declaration, denotes the node of the
target. -/
theorem Emission.nameOf_denotes (env : Emission.Setting) (current target : List String) (address : Address)
    (node : Namespace (Schema Json)) (hdistinct : Naming.IsDistinct env.tree) (hnames : address.names = .ok target)
    (hne : target ≠ []) (hnode : env.tree.find? target = some node) (notices : List Notice) :
    ∃ text notices', Emission.nameOf env current.dropLast address notices = .ok text notices' ∧
      Naming.denotes? env.tree current.dropLast text = some (target, node) := by
  apply Yields.exists_ok
  have hdenotes := Naming.refer_denotes hdistinct current.dropLast hne hnode
  have hempty : ¬ target.isEmpty = true := by simpa using hne
  unfold Emission.nameOf
  rw [hnames]
  refine Yields.bind (Yields.of_pure ?_)
  dsimp only
  rw [if_neg hempty]
  split_ifs
  · exact Yields.bind (Yields.of_modify (Yields.of_pure hdenotes))
  · exact Yields.of_pure hdenotes

/-- Namespaces in which the name of `a/x` is shadowed inside `a/a`, with and without the part that is shared. -/
def shadowedNames : Namespace (Schema Json) :=
  .node none [("a", .node none [("a", .node none [("x", .empty), ("y", .empty)]), ("x", .empty)])]

lemma isDistinct_shadowedNames : Naming.IsDistinct shadowedNames := by
  have hempty : Naming.IsDistinct (Namespace.empty : Namespace (Schema Json)) :=
    Naming.isDistinct_node List.nodup_nil fun _ h => absurd h List.not_mem_nil
  refine Naming.isDistinct_node (by decide +kernel) ?_
  simp only [List.mem_singleton, forall_eq]
  refine Naming.isDistinct_node (by decide +kernel) ?_
  simp only [List.mem_cons, List.not_mem_nil, or_false, forall_eq_or_imp, forall_eq]
  refine ⟨Naming.isDistinct_node (by decide +kernel) ?_, hempty⟩
  simp only [List.mem_cons, List.not_mem_nil, or_false, forall_eq_or_imp, forall_eq]
  exact ⟨hempty, hempty⟩

/-- A setting with these namespaces, in which nothing else is known. -/
def shadowedSetting : Emission.Setting :=
  ⟨⟨none, .distinct, 0⟩, fun _ => .error .endless, fun _ => false, shadowedNames, 0⟩

theorem Emission.nameOf_denotes_shadowedNames :
    Naming.IsDistinct shadowedSetting.tree ∧ Address.names ⟨"/a#/x"⟩ = .ok ["a", "x"] ∧
      ∃ notices, Emission.nameOf shadowedSetting ["a", "a"] ⟨"/a#/x"⟩ [] = .ok "globalThis.A.X" notices ∧
        Naming.denotes? shadowedSetting.tree ["a", "a"] "globalThis.A.X" = some (["a", "x"], .empty) := by
  have hnames : Address.names ⟨"/a#/x"⟩ = .ok ["a", "x"] := by
    have hoption : (Address.names ⟨"/a#/x"⟩).toOption = some ["a", "x"] := by decide +kernel
    cases h : Address.names ⟨"/a#/x"⟩ with
    | ok names =>
      rw [h] at hoption
      exact congrArg Except.ok (Option.some.inj hoption)
    | error f =>
      rw [h] at hoption
      cases hoption
  obtain ⟨text, notices, hname, hdenotes⟩ := Emission.nameOf_denotes shadowedSetting ["a", "a", "y"] ["a", "x"] ⟨"/a#/x"⟩
    .empty isDistinct_shadowedNames hnames (List.cons_ne_nil _ _) rfl []
  have hrun : ends (Emission.nameOf shadowedSetting ["a", "a"] ⟨"/a#/x"⟩) [] (fun text _ => text == "globalThis.A.X") =
      true := by
    decide +kernel
  obtain ⟨text', notices', hname', htext⟩ := exists_of_ends hrun
  obtain ⟨rfl, rfl⟩ := EStateM.Result.ok.inj (hname.symm.trans hname')
  obtain rfl := beq_iff_eq.1 htext
  exact ⟨isDistinct_shadowedNames, hnames, notices, hname, hdenotes⟩

end Typings
